import Gatekeeper.Proofs.Workflow.Inputs
import Gatekeeper.Proofs.Workflow.Lockstep

/-!
# Two names for an attribute

An attribute is a property of its object and the result of an accessor there. In a compiled
workflow either name can be written for the other, at one step or at many, wherever the step stands
and whatever it is taken on: on the other object both lead to nothing, and on nothing both fail.
-/

set_option autoImplicit false

namespace Gatekeeper
open Environment

inductive Alias : String → String → Prop
  | accessor (a : Attribute) : Alias a.property a.accessor
  | property (a : Attribute) : Alias a.accessor a.property

/-- The second tree is the first one, where any of the members may go by the other name of their
attribute. -/
inductive Expr.Respelled : Expr → Expr → Prop
  | number (value : Number) : Respelled (.number value) (.number value)
  | string (value : String) : Respelled (.string value) (.string value)
  | identifier (name : String) : Respelled (.identifier name) (.identifier name)
  | «variable» (name : String) : Respelled (.variable name) (.variable name)
  | member {object object' property property' : Expr} (first : Respelled object object')
      (second : Respelled property property') :
      Respelled (.member object property) (.member object' property')
  | renamed {object object' : Expr} {key key' : String} (first : Respelled object object')
      (names : Alias key key') :
      Respelled (.member object (.identifier key)) (.member object' (.identifier key'))
  | call {callee callee' : Expr} {arguments arguments' : List Expr}
      (first : Respelled callee callee') (rest : List.Forall₂ Respelled arguments arguments') :
      Respelled (.call callee arguments) (.call callee' arguments')
  | comparison (operator : Operator) {left left' right right' : Expr}
      (first : Respelled left left') (second : Respelled right right') :
      Respelled (.comparison operator left right) (.comparison operator left' right')

structure Definition.Respelled (q q' : Definition) : Prop where
  name : q'.name = q.name
  tree : q.tree.Respelled q'.tree

structure Workflow.Respelled (w w' : Workflow) : Prop where
  pattern : w'.pattern = w.pattern
  params : List.Forall₂ Definition.Respelled w.params w'.params
  rules : List.Forall₂ Definition.Respelled w.rules w'.rules

variable {env : Environment} {input : DecisionInput} {bound : List String}
variable {key key' : String} {v : Value} {e e' : Expr}

/-! ## Steps -/

/-- Both names lead to the same attribute, and no attribute has one of them only. -/
theorem Alias.isNamed (names : Alias key key') (a : Attribute) :
    a.IsNamed key ↔ a.IsNamed key' := by
  cases names with
  | accessor other => cases a <;> cases other <;> decide
  | property other => cases a <;> cases other <;> decide

/-- On an object of the decision the two names read the same, and on nothing both fail; on all else
there is nothing to read. -/
theorem Alias.step (names : Alias key key') (within : Alike v v) :
    SameValue (env.step v key) (env.step v key') := by
  have finds : ∀ attributes : List Attribute,
      attributes.find? (fun a => a.IsNamed key) = attributes.find? (fun a => a.IsNamed key') := by
    intro attributes
    simp only [names.isNamed]
  cases within with
  | undefined => exact .errors _ _
  | user =>
    rw [step_user, step_user, finds]
    exact .refl _
  | request =>
    rw [step_request, step_request, finds]
    exact .refl _
  | _ => exact .refl _

/-! ## Trees -/

/-- With the standard builtins values are within reach of the objects of the decision. -/
theorem evaluate_within (own : Paired Alike input input env env)
    (admitted : Admitted .standard bound e) (value : evaluate env e = .ok v) : Alike v v := by
  have agree := evaluate_agree (Workflow.alike_kept input input) own admitted fun _ _ => trivial
  rw [value] at agree
  cases agree with
  | ok related => exact related

theorem evaluateAll_respelled {es es' : List Expr} (respelled : List.Forall₂ Expr.Respelled es es')
    (each : ∀ e ∈ es, ∀ e', e.Respelled e' → SameValue (evaluate env e) (evaluate env e')) :
    SameValue (evaluateAll env es) (evaluateAll env es') := by
  induction respelled with
  | nil => exact .refl _
  | cons here later ih =>
    obtain ⟨first, others⟩ := List.forall_mem_cons.1 each
    rw [evaluateAll, evaluateAll]
    exact (first _ here).bind fun _ => (ih others).bind fun _ => .refl _

/-- An admitted tree has the same value under the other names, or none under both. Errors may
differ, for they show the names. -/
theorem evaluate_respelled (own : Paired Alike input input env env)
    (admitted : Admitted .standard bound e) (respelled : e.Respelled e') :
    SameValue (evaluate env e) (evaluate env e') := by
  induction admitted generalizing e' with
  | number | string | identifier | «variable» =>
    cases respelled
    exact .refl _
  | @member object name inner ih =>
    cases respelled with
    | member first second =>
      cases second
      rw [evaluate_member, evaluate_member]
      exact (ih first).bind fun _ => .refl _
    | renamed first names =>
      rw [evaluate_member, evaluate_member, own.builtins, standard_keyOf, standard_keyOf]
      exact (ih first).bind_of_value fun v value => names.step (evaluate_within own inner value)
  | call isFunction inner ih =>
    cases respelled with
    | call first rest =>
      cases first
      have values := evaluateAll_respelled rest fun e he e' => ih e he
      simp only [evaluate]
      refine (SameValue.refl _).bind fun f => ?_
      cases f with
      | function f => exact values.bind fun _ => .refl _
      | _ => exact .errors _ _
  | comparison operator left right ihLeft ihRight =>
    cases respelled with
    | comparison _ first second =>
      rw [evaluate, evaluate]
      exact (ihLeft first).bind fun _ => (ihRight second).bind fun _ => .refl _

/-! ## Decisions -/

def Shared (input : DecisionInput) (env env' : Environment) : Prop :=
  env' = env ∧ Paired Alike input input env env

theorem Definition.Respelled.sameIn {q q' : Definition} (respelled : q.Respelled q')
    (admitted : Admitted .standard bound q.tree) : Workflow.SameIn (Shared input) q q' := by
  rintro env _ ⟨rfl, own⟩
  exact evaluate_respelled own admitted respelled.tree

theorem Definition.Respelled.boundIn {p p' : Definition} (respelled : p.Respelled p')
    (admitted : Admitted .standard bound p.tree) : Workflow.BoundIn (Shared input) p p' where
  same := respelled.sameIn admitted
  kept := by
    rintro env _ v ⟨rfl, own⟩ value
    rw [respelled.name]
    exact ⟨rfl, own.bind p.name (evaluate_within own admitted value)⟩

namespace Workflow

variable {d : Document} {w w' : Workflow}

theorem respelled_lockstep (compiled : compile d .standard = .ok w) (respelled : w.Respelled w')
    (input : DecisionInput) : Lockstep (Shared input) w w' := by
  obtain ⟨params, rules⟩ := compile_followed compiled fun _ _ _ _ => trivial
  refine ⟨respelled.pattern, ?_, ?_⟩
  · refine forall₂_imp_of_mem respelled.params fun p hp p' here => ?_
    obtain ⟨⟨bound, admitted⟩, -⟩ := params p hp
    exact here.boundIn admitted
  · refine forall₂_imp_of_mem respelled.rules fun q hq q' here => ?_
    obtain ⟨⟨bound, admitted⟩, -⟩ := rules q hq
    exact here.sameIn admitted

/-- A property and the accessor of the same attribute are interchangeable. Where a workflow that
compiles has one of them, at any of its steps the other may stand: the run and the decision come to
the same answer on every input, or both fail. -/
theorem aliases_interchangeable (compiled : compile d .standard = .ok w)
    (respelled : w.Respelled w') (host : Host) (fold : RuleFold) (input : DecisionInput) :
    SameValue (w.execute host .standard fold input) (w'.execute host .standard fold input) ∧
      SameValue (w.decide host .standard fold input) (w'.decide host .standard fold input) := by
  have lockstep := respelled_lockstep compiled respelled input
  have own := forDecision_paired (alike_kept input input) host
  have start : Shared input _ _ := ⟨rfl, own⟩
  exact ⟨lockstep.execute start, lockstep.decide start⟩

def respelledDesk : Workflow :=
  { deskWorkflow with
    params :=
      [⟨"who", "$user", .variable "user"⟩,
        ⟨"area", "$request.getPath", .member (.variable "request") (.identifier "getPath")⟩,
        ⟨"role", "$who.role", .member (.variable "who") (.identifier "role")⟩] }

theorem desk_respelled : deskWorkflow.Respelled respelledDesk where
  pattern := rfl
  params :=
    .cons ⟨rfl, .variable "user"⟩
      (.cons ⟨rfl, .renamed (.variable "request") (.accessor .path)⟩
        (.cons ⟨rfl, .renamed (.variable "who") (.property .role)⟩ .nil))
  rules :=
    .cons ⟨rfl, .call (.identifier "in") (.cons (.variable "role") (.cons (.identifier "STAFF")
        (.cons (.identifier "OWNER") .nil)))⟩
      (.cons ⟨rfl, .comparison .unequal (.variable "area") (.string "/desk/safe")⟩ .nil)

theorem aliases_interchangeable_desk :
    deskWorkflow.decide .bare .standard .strict staffer = .ok true ∧
      respelledDesk.decide .bare .standard .strict staffer = .ok true := by
  have answer : deskWorkflow.decide .bare .standard .strict staffer = .ok true := by cbv
  obtain ⟨-, decision⟩ := aliases_interchangeable desk_compiles desk_respelled .bare .strict staffer
  exact ⟨answer, (decision true).1 answer⟩

end Workflow

end Gatekeeper
