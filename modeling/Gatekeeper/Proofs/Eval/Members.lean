import Gatekeeper.Eval
import Gatekeeper.Proofs.Expr.Listing

/-!
# One step along a path of members

A step to a member that a word names: the key is the word's own text unless a text is registered
under the word, and what stands under the key is read, a function by calling it.
-/

set_option autoImplicit false

namespace Gatekeeper
open Environment

def Expr.ReadsMember (e : Expr) (key : String) : Prop :=
  ∃ object, e.Has (.member object (.identifier key))

def Builtins.keyOf (b : Builtins) (name : String) : String :=
  match b.get? name with
  | some (.string key) => key
  | _ => name

def Environment.step (env : Environment) (target : Value) (key : String) : Except Error Value := do
  match ← env.readMember target key with
  | .function accessor => env.apply accessor []
  | value => return value

theorem memberKey_word (b : Builtins) (name : String) :
    memberKey (.identifier name) ((b.get? name).getD (.string name)) = .ok (b.keyOf name) := by
  unfold Builtins.keyOf
  cases b.get? name with
  | none => rfl
  | some v => cases v <;> rfl

theorem evaluate_member (env : Environment) (object : Expr) (name : String) :
    evaluate env (.member object (.identifier name)) =
      evaluate env object >>= fun target => env.step target (env.builtins.keyOf name) := by
  simp only [evaluate]
  congr 1
  funext target
  show (memberKey (.identifier name) _ >>= _) = _
  rw [memberKey_word]
  rfl

theorem keyOf_congr {b b' : Builtins} {name : String} (same : b.get? name = b'.get? name) :
    b.keyOf name = b'.keyOf name := by
  rw [Builtins.keyOf, Builtins.keyOf, same]

theorem keyOf_eq_self {b : Builtins} {name : String} :
    b.keyOf name = name ↔ ∀ text, b.get? name = some (.string text) → text = name := by
  unfold Builtins.keyOf
  split
  · simp [*]
  · rename_i noText
    exact ⟨fun _ text registered => absurd registered (noText text), fun _ => rfl⟩

theorem Expr.ReadsMember.has {e : Expr} {key : String} (h : e.ReadsMember key) :
    e.Has (.identifier key) := by
  obtain ⟨object, place, here⟩ := h
  refine ⟨.child (.member object (.identifier key)) .property, nodes_within here _ ?_⟩
  simp [Expr.nodes]

end Gatekeeper
