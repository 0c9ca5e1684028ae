import Gatekeeper.Proofs.Eval.Members
import Gatekeeper.Proofs.Workflow.Admitted

/-!
# Evaluation on two inputs

With the standard builtins the only handles within reach are the two functions and the two objects
of the decision, and the input shows only in texts and in the truth values that comparisons make of
them. So a relation of values that is kept by attributes, comparisons and the two functions is kept
by the evaluation of every admitted tree, and its errors are the same on both inputs.
-/

set_option autoImplicit false

namespace Gatekeeper
open Environment

def Attribute.IsNamed (a : Attribute) (key : String) : Prop := key = a.property ∨ key = a.accessor

instance (a : Attribute) (key : String) : Decidable (a.IsNamed key) :=
  inferInstanceAs (Decidable (_ ∨ _))

/-! ## Steps to attributes -/

theorem standard_get? (name : String) : Builtins.standard.get? name =
    if "ip_range" = name then some (.function .addressRange)
    else if "in" = name then some (.function .membership) else none := by
  rw [Builtins.standard, NameMap.get?_insert, NameMap.get?_insert]
  rfl

theorem standard_keyOf (name : String) : Builtins.standard.keyOf name = name := by
  rw [Builtins.keyOf, standard_get?]
  split_ifs <;> rfl

def ObjectRef.attributes : ObjectRef → List Attribute
  | .user => [.role]
  | .request => [.ipAddress, .path]
  | .native .. => []

def DecisionInput.shown (input : DecisionInput) : Option Attribute → Value
  | some a => .string (input.get a)
  | none => .undefined

/-- Under its property and under its accessor an attribute reads the same. -/
theorem step_attribute (env : Environment) (key : String) (attributes : List Attribute) :
    (match (attributeMember env.input key attributes).getD .undefined with
      | .function accessor => env.apply accessor []
      | value => return value) =
      .ok (env.input.shown (attributes.find? fun a => a.IsNamed key)) := by
  induction attributes with
  | nil => rfl
  | cons a rest ih =>
    rw [attributeMember]
    by_cases property : key = a.property
    · have named : a.IsNamed key := .inl property
      rw [if_pos property, List.find?_cons_of_pos (by simpa using named)]
      rfl
    · rw [if_neg property]
      by_cases accessor : key = a.accessor
      · have named : a.IsNamed key := .inr accessor
        rw [if_pos accessor, List.find?_cons_of_pos (by simpa using named)]
        rfl
      · have unnamed : ¬ a.IsNamed key := not_or.2 ⟨property, accessor⟩
        rw [if_neg accessor, List.find?_cons_of_neg (by simpa using unnamed), ih]

theorem step_user (env : Environment) (key : String) : env.step (.object .user) key =
    .ok (env.input.shown (ObjectRef.user.attributes.find? fun a => a.IsNamed key)) :=
  step_attribute env key _

theorem step_request (env : Environment) (key : String) : env.step (.object .request) key =
    .ok (env.input.shown (ObjectRef.request.attributes.find? fun a => a.IsNamed key)) :=
  step_attribute env key _

/-! ## Values of two runs -/

/-- Values that decisions with the standard builtins come by in the same place on two inputs: texts
and truth values may differ, and all else is the same. -/
inductive Alike : Value → Value → Prop
  | undefined : Alike .undefined .undefined
  | bool (b b' : Bool) : Alike (.bool b) (.bool b')
  | number (x : Number) : Alike (.number x) (.number x)
  | string (s s' : String) : Alike (.string s) (.string s')
  | membership : Alike (.function .membership) (.function .membership)
  | addressRange : Alike (.function .addressRange) (.function .addressRange)
  | user : Alike (.object .user) (.object .user)
  | request : Alike (.object .request) (.object .request)

theorem Alike.typeName_eq {v v' : Value} (h : Alike v v') : v.typeName = v'.typeName := by
  cases h <;> rfl

/-- A relation of alike values that is kept on two inputs by all that makes new values. Attributes
need to be in the relation only where they are read. -/
structure Kept (r : Value → Value → Prop) (read : String → Prop) (x y : DecisionInput) : Prop where
  alike : ∀ {v v'}, r v v' → Alike v v'
  refl : ∀ {v}, Alike v v → r v v
  member : ∀ {a : Attribute} {key}, read key → a.IsNamed key →
    r (.string (x.get a)) (.string (y.get a))
  membership : ∀ {vs vs'}, List.Forall₂ r vs vs' →
    r (.bool (isMember vs)) (.bool (isMember vs'))
  addressRange : ∀ {vs vs'}, List.Forall₂ r vs vs' →
    r (.bool (isInAddressRange vs)) (.bool (isInAddressRange vs'))
  comparison : ∀ (operator : Operator) {v v' u u'}, r v v' → r u u' →
    r (.bool (operator.apply v u)) (.bool (operator.apply v' u'))

structure Paired (r : Value → Value → Prop) (x y : DecisionInput) (env env' : Environment) :
    Prop where
  builtins : env.builtins = .standard
  builtins' : env'.builtins = .standard
  input : env.input = x
  input' : env'.input = y
  bindings : ∀ name, Option.Rel r (env.bindings.get? name) (env'.bindings.get? name)

variable {r : Value → Value → Prop} {read : String → Prop} {x y : DecisionInput}
variable {env env' : Environment} {v v' : Value}

theorem Kept.shown (kept : Kept r read x y) {key : String} (isRead : read key)
    {attributes : List Attribute} :
    r (x.shown (attributes.find? fun a => a.IsNamed key))
      (y.shown (attributes.find? fun a => a.IsNamed key)) := by
  cases found : attributes.find? fun a => a.IsNamed key with
  | none => exact kept.refl .undefined
  | some a =>
    have named : a.IsNamed key := by simpa using List.find?_some found
    exact kept.member isRead named

theorem step_agree (kept : Kept r read x y) (paired : Paired r x y env env') {key : String}
    (isRead : read key) (related : r v v') : Agree r (env.step v key) (env'.step v' key) := by
  cases kept.alike related with
  | undefined => exact .error _
  | user =>
    rw [step_user, step_user, paired.input, paired.input']
    exact .ok (kept.shown isRead)
  | request =>
    rw [step_request, step_request, paired.input, paired.input']
    exact .ok (kept.shown isRead)
  | _ => exact .ok (kept.refl .undefined)

theorem readVariable_agree (kept : Kept r read x y) (paired : Paired r x y env env')
    (name : String) : Agree r (env.readVariable name) (env'.readVariable name) := by
  have bound := paired.bindings name
  unfold readVariable
  generalize env.bindings.get? name = here at bound ⊢
  generalize env'.bindings.get? name = there at bound ⊢
  cases bound with
  | none => exact .error _
  | some related =>
    cases kept.alike related with
    | undefined => exact .error _
    | _ => exact .ok related

/-- A word means the same in both runs. -/
theorem word_agree (kept : Kept r read x y) (paired : Paired r x y env env') (name : String) :
    Agree r (evaluate env (.identifier name)) (evaluate env' (.identifier name)) := by
  rw [evaluate, evaluate, paired.builtins, paired.builtins', standard_get?]
  refine .ok (kept.refl ?_)
  split_ifs
  · exact .addressRange
  · exact .membership
  · exact .string name name

theorem evaluateAll_agree {es : List Expr}
    (each : ∀ e ∈ es, Agree r (evaluate env e) (evaluate env' e)) :
    Agree (List.Forall₂ r) (evaluateAll env es) (evaluateAll env' es) := by
  induction es with
  | nil => exact .ok .nil
  | cons e es ih =>
    rw [evaluateAll, evaluateAll]
    refine (each e (by simp)).bind fun v v' first => ?_
    refine (ih fun e he => each e (by simp [he])).bind fun vs vs' rest => ?_
    exact .ok (.cons first rest)

/-- The functions of the standard builtins keep the relation. -/
theorem call_agree (kept : Kept r read x y) (paired : Paired r x y env env') {name : String}
    (isFunction : Builtins.standard.isFunction name = true) {arguments : List Expr}
    (each : ∀ e ∈ arguments, Agree r (evaluate env e) (evaluate env' e)) :
    Agree r (evaluate env (.call (.identifier name) arguments))
      (evaluate env' (.call (.identifier name) arguments)) := by
  have values := evaluateAll_agree each
  simp only [evaluate, paired.builtins, paired.builtins', standard_get?]
  by_cases range : "ip_range" = name
  · rw [if_pos range]
    exact values.bind fun vs vs' related => .ok (kept.addressRange related)
  · rw [if_neg range]
    by_cases member : "in" = name
    · rw [if_pos member]
      exact values.bind fun vs vs' related => .ok (kept.membership related)
    · have unknown : Builtins.standard.isFunction name = false := by
        simp [Builtins.isFunction, standard_get?, range, member]
      rw [unknown] at isFunction
      cases isFunction

/-- An admitted tree evaluates alike in both runs, or fails in both with the same error. -/
theorem evaluate_agree {bound : List String} {e : Expr} (kept : Kept r read x y)
    (paired : Paired r x y env env') (admitted : Admitted .standard bound e)
    (reads : ∀ key, e.ReadsMember key → read key) :
    Agree r (evaluate env e) (evaluate env' e) := by
  induction admitted with
  | number value => exact .ok (kept.refl (.number value))
  | string value => exact .ok (kept.refl (.string value value))
  | identifier name => exact word_agree kept paired name
  | «variable» isBound => exact readVariable_agree kept paired _
  | @member object name inner ih =>
    have isRead : read name := reads name ⟨object, has_self _⟩
    have first := ih fun key ⟨o, inside⟩ => reads key ⟨o, has_of_child List.mem_cons_self inside⟩
    rw [evaluate_member, evaluate_member, paired.builtins, paired.builtins', standard_keyOf]
    exact first.bind fun v v' related => step_agree kept paired isRead related
  | @call name arguments isFunction inner ih =>
    apply call_agree kept paired isFunction
    intro e he
    exact ih e he fun key ⟨o, inside⟩ => reads key ⟨o, has_argument he inside⟩
  | @comparison left right operator first second ihFirst ihSecond =>
    have before := ihFirst fun key ⟨o, inside⟩ =>
      reads key ⟨o, has_of_child List.mem_cons_self inside⟩
    have after := ihSecond fun key ⟨o, inside⟩ =>
      reads key ⟨o, has_of_child (List.mem_cons_of_mem _ List.mem_cons_self) inside⟩
    rw [evaluate, evaluate]
    refine before.bind fun v v' here => ?_
    exact after.bind fun u u' there => .ok (kept.comparison operator here there)

end Gatekeeper
