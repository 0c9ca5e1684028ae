import Gatekeeper.Eval
import Gatekeeper.Proofs.Workflow.Admitted

/-!
# What evaluation can come by

The values within reach of an environment and the errors that evaluation of an admitted tree can
end in. A tree that reads bound variables only never reads an absent one, its members always have a
key and its callees are always functions; the faults that remain are named one by one.
-/

set_option autoImplicit false

namespace Gatekeeper
open Environment

/-- The values an environment's own can lead to: its builtins and the objects of the decision, the
members of objects, and what functions answer. -/
inductive Reachable (env : Environment) : Value → Prop
  | undefined : Reachable env .undefined
  | bool (b : Bool) : Reachable env (.bool b)
  | number (x : Number) : Reachable env (.number x)
  | string (s : String) : Reachable env (.string s)
  | user : Reachable env (.object .user)
  | request : Reachable env (.object .request)
  | builtin {name : String} {v : Value} (registered : env.builtins.get? name = some v) :
      Reachable env v
  | member {handle : ObjectRef} {key : String} {v : Value}
      (owner : Reachable env (.object handle)) (found : env.member? handle key = some v) :
      Reachable env v
  | answer {f : FunctionRef} {arguments : List Value} {v : Value}
      (called : Reachable env (.function f)) (inputs : ∀ a ∈ arguments, Reachable env a)
      (result : env.apply f arguments = .ok v) : Reachable env v

inductive Fault (env : Environment) : Error → Prop
  | unresolved {name : String} (empty : env.bindings.get? name = some .undefined) :
      Fault env (.execution (.unresolvedVariable name))
  | memberOfUndefined (key : String) : Fault env (.execution (.memberOfUndefined key))
  | reported {f : FunctionRef} {arguments : List Value} {e : Error}
      (called : Reachable env (.function f)) (inputs : ∀ a ∈ arguments, Reachable env a)
      (result : env.apply f arguments = .error e) : Fault env e

/-- No function of the embedding program that is within reach returns an error. -/
def NativesAnswer (env : Environment) : Prop :=
  ∀ name key arguments, Reachable env (.function (.native name key)) →
    (∀ a ∈ arguments, Reachable env a) → ∃ v, env.host.call key arguments = .ok v

structure Covers (env : Environment) (bound : List String) : Prop where
  present : ∀ name ∈ bound, ∃ v, env.bindings.get? name = some v
  within : ∀ name v, env.bindings.get? name = some v → Reachable env v

variable {env : Environment} {bound : List String}

/-- What is within reach does not depend on the bindings. -/
theorem Reachable.rebind (bindings : NameMap Value) {v : Value} (h : Reachable env v) :
    Reachable { env with bindings } v := by
  induction h with
  | undefined => exact .undefined
  | bool b => exact .bool b
  | number x => exact .number x
  | string s => exact .string s
  | user => exact .user
  | request => exact .request
  | builtin registered => exact .builtin registered
  | member owner found ih => exact .member ih found
  | answer called inputs result ihCalled ihInputs => exact .answer ihCalled ihInputs result

theorem reachable_bind {name : String} {bound v : Value} :
    Reachable (env.bind name bound) v ↔ Reachable env v :=
  ⟨fun h => h.rebind env.bindings, fun h => h.rebind _⟩

theorem apply_meets {f : FunctionRef} {arguments : List Value}
    (called : Reachable env (.function f)) (inputs : ∀ a ∈ arguments, Reachable env a) :
    Meets (Reachable env) (Fault env) (env.apply f arguments) := by
  cases result : env.apply f arguments with
  | ok v => exact .answer called inputs result
  | error e => exact .reported called inputs result

theorem readVariable_meets {name : String} (covers : Covers env bound) (here : name ∈ bound) :
    Meets (Reachable env) (Fault env) (env.readVariable name) := by
  obtain ⟨v, hv⟩ := covers.present name here
  have reach := covers.within name v hv
  cases v with
  | undefined =>
    rw [readVariable, hv]
    exact .unresolved hv
  | _ =>
    rw [readVariable, hv]
    exact reach

theorem readMember_meets {target : Value} {key : String} (reach : Reachable env target) :
    Meets (Reachable env) (Fault env) (env.readMember target key) := by
  cases target with
  | undefined => exact .memberOfUndefined key
  | object handle =>
    show Reachable env ((env.member? handle key).getD .undefined)
    cases found : env.member? handle key with
    | none => exact .undefined
    | some v => exact .member reach found
  | _ => exact .undefined

/-- A word always serves as a key: by its text, or else by itself. -/
theorem memberKey_identifier (name : String) (v : Value) :
    ∃ key, memberKey (.identifier name) v = .ok key := by
  cases v with
  | string s => exact ⟨s, rfl⟩
  | _ => exact ⟨name, rfl⟩

theorem identifier_reachable (name : String) :
    Reachable env ((env.builtins.get? name).getD (.string name)) := by
  cases registered : env.builtins.get? name with
  | none => exact .string name
  | some v => exact .builtin registered

theorem isFunction_eq_true {b : Builtins} {name : String} :
    b.isFunction name = true ↔ ∃ f, b.get? name = some (.function f) := by
  unfold Builtins.isFunction
  split
  · simp [*]
  · simpa using ‹∀ f, b.get? name = some (.function f) → False›

theorem evaluateAll_meets {es : List Expr}
    (each : ∀ e ∈ es, Meets (Reachable env) (Fault env) (evaluate env e)) :
    Meets (fun values => ∀ v ∈ values, Reachable env v) (Fault env) (evaluateAll env es) := by
  induction es with
  | nil =>
    intro v hv
    simp at hv
  | cons e es ih =>
    rw [evaluateAll]
    refine (each e (by simp)).bind fun value first => ?_
    refine (ih fun e he => each e (by simp [he])).bind fun values rest => ?_
    exact List.forall_mem_cons.2 ⟨first, rest⟩

/-- Where all that a tree may read is bound, its value is within reach and its error is one of the
faults. -/
theorem evaluate_meets {e : Expr} (admitted : Admitted env.builtins bound e)
    (covers : Covers env bound) : Meets (Reachable env) (Fault env) (evaluate env e) := by
  induction admitted with
  | number value => exact .number value
  | string value => exact .string value
  | identifier name => exact identifier_reachable name
  | «variable» isBound => exact readVariable_meets covers isBound
  | member name inner ih =>
    obtain ⟨key, hkey⟩ :=
      memberKey_identifier name ((env.builtins.get? name).getD (.string name))
    rw [evaluate]
    refine ih.bind fun target reach => ?_
    show Meets _ _ (memberKey (.identifier name) _ >>= _)
    rw [hkey]
    refine (readMember_meets reach).bind fun value found => ?_
    cases value with
    | function accessor => exact apply_meets found (by simp)
    | _ => exact found
  | @call name arguments isFunction inner ih =>
    obtain ⟨f, hf⟩ := isFunction_eq_true.1 isFunction
    have callee : evaluate env (.identifier name) = .ok (.function f) := by
      rw [evaluate, hf]
      rfl
    rw [evaluate, callee]
    exact (evaluateAll_meets ih).bind fun values inputs => apply_meets (.builtin hf) inputs
  | comparison operator first second ihFirst ihSecond =>
    rw [evaluate]
    exact ihFirst.bind fun left _ => ihSecond.bind fun right _ => .bool _

/-- Where the embedding program's functions answer, two kinds of errors remain. -/
theorem Fault.cases_of_answers {e : Error} (fault : Fault env e) (answers : NativesAnswer env) :
    (∃ name, env.bindings.get? name = some .undefined ∧
      e = .execution (.unresolvedVariable name)) ∨
    ∃ key, e = .execution (.memberOfUndefined key) := by
  cases fault with
  | @unresolved name empty => exact .inl ⟨name, empty, rfl⟩
  | memberOfUndefined key => exact .inr ⟨key, rfl⟩
  | @reported f arguments e called inputs result =>
    cases f with
    | native name key =>
      obtain ⟨v, hv⟩ := answers name key arguments called inputs
      have : env.host.call key arguments = .error e := result
      rw [hv] at this
      cases this
    | _ => cases result

end Gatekeeper
