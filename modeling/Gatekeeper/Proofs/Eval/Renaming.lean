import Mathlib.Data.Set.Function
import Gatekeeper.Proofs.Eval.Coincidence

/-!
# Variables under other names

The variables of a tree can be given other names as long as its environment is given them too.
Words, members and texts keep theirs: a variable may have the name of any of them, since the names
of variables are looked up among the bindings only.
-/

set_option autoImplicit false

namespace Gatekeeper
open Gatekeeper.Expr Environment

mutual

def Expr.rename (σ : String → String) : Expr → Expr
  | .variable name => .variable (σ name)
  | .member object property => .member (object.rename σ) (property.rename σ)
  | .call callee arguments => .call (callee.rename σ) (renameAll σ arguments)
  | .comparison operator left right => .comparison operator (left.rename σ) (right.rename σ)
  | .number value => .number value
  | .string value => .string value
  | .identifier name => .identifier name

def Expr.renameAll (σ : String → String) : List Expr → List Expr
  | [] => []
  | e :: es => e.rename σ :: renameAll σ es

end

variable {σ : String → String} {e : Expr}

/-! ## Trees -/

theorem rename_eq_variable {name : String} :
    e.rename σ = .variable name ↔ ∃ old, e = .variable old ∧ σ old = name := by
  cases e <;> simp [Expr.rename]

theorem rename_eq_call {callee : Expr} {arguments : List Expr} :
    e.rename σ = .call callee arguments ↔
      ∃ f es, e = .call f es ∧ f.rename σ = callee ∧ renameAll σ es = arguments := by
  cases e <;> simp [Expr.rename]

theorem identifier?_rename (σ : String → String) (e : Expr) :
    (e.rename σ).identifier? = e.identifier? := by
  cases e <;> rfl

theorem memberKey_rename (σ : String → String) (e : Expr) :
    memberKey (e.rename σ) = memberKey e := by
  funext v
  cases v <;> simp only [memberKey, identifier?_rename]

theorem argumentChildren_rename {parent parent' : Expr} {index : Nat} {es : List Expr}
    {child' : Expr × Place} (h : child' ∈ argumentChildren parent' index (renameAll σ es)) :
    ∃ child ∈ argumentChildren parent index es, child'.1 = child.1.rename σ := by
  induction es generalizing index with
  | nil => cases h
  | cons e es ih =>
    rcases List.mem_cons.1 h with rfl | later
    · exact ⟨_, List.mem_cons_self, rfl⟩
    · obtain ⟨child, hc, same⟩ := ih later
      exact ⟨child, List.mem_cons_of_mem _ hc, same⟩

theorem children_rename {child' : Expr × Place} (h : child' ∈ (e.rename σ).children) :
    ∃ child ∈ e.children, child'.1 = child.1.rename σ := by
  cases e with
  | call callee arguments =>
    rcases List.mem_cons.1 h with rfl | later
    · exact ⟨_, List.mem_cons_self, rfl⟩
    · obtain ⟨child, hc, same⟩ := argumentChildren_rename later
      exact ⟨child, List.mem_cons_of_mem _ hc, same⟩
  | member first second =>
    simp only [Expr.rename, children, List.mem_cons, List.not_mem_nil, or_false] at h ⊢
    rcases h with rfl | rfl
    · exact ⟨_, .inl rfl, rfl⟩
    · exact ⟨_, .inr rfl, rfl⟩
  | comparison operator first second =>
    simp only [Expr.rename, children, List.mem_cons, List.not_mem_nil, or_false] at h ⊢
    rcases h with rfl | rfl
    · exact ⟨_, .inl rfl, rfl⟩
    · exact ⟨_, .inr rfl, rfl⟩
  | _ => cases h

/-- What stands in the renamed tree is renamed from what stands in the tree. -/
theorem has_rename {part' : Expr} (h : (e.rename σ).Has part') :
    ∃ part, e.Has part ∧ part.rename σ = part' := by
  induction e using children_induction with
  | step e ih =>
    obtain ⟨place, hn⟩ := h
    rw [nodes_eq] at hn
    rcases List.mem_cons.1 hn with here | later
    · exact ⟨e, has_self e, (Prod.mk.inj here).1.symm⟩
    · obtain ⟨child', hc', inside⟩ := List.mem_flatMap.1 later
      obtain ⟨child, hc, same⟩ := children_rename hc'
      rw [same] at inside
      obtain ⟨part, has, rfl⟩ := ih child hc ((has_iff _).2 ⟨place, inside⟩)
      exact ⟨part, has_of_child hc has, rfl⟩

/-! ## Evaluation -/

structure Renames (σ : String → String) (scope : List String) (env env' : Environment) : Prop where
  host : env.host = env'.host
  builtins : env.builtins = env'.builtins
  input : env.input = env'.input
  bindings : ∀ name ∈ scope, env'.bindings.get? (σ name) = env.bindings.get? name

def Within (scope : List String) (e : Expr) : Prop :=
  ∀ name, e.Has (.variable name) → name ∈ scope

variable {scope : List String} {env env' : Environment}

theorem evaluateAll_rename {es : List Expr}
    (each : ∀ e ∈ es, SameValue (evaluate env e) (evaluate env' (e.rename σ))) :
    SameValue (evaluateAll env es) (evaluateAll env' (renameAll σ es)) := by
  induction es with
  | nil => exact .refl _
  | cons e es ih =>
    obtain ⟨here, later⟩ := List.forall_mem_cons.1 each
    rw [renameAll, evaluateAll, evaluateAll]
    exact here.bind fun _ => (ih later).bind fun _ => .refl _

theorem readVariable_rename {name : String}
    (same : env'.bindings.get? (σ name) = env.bindings.get? name) :
    SameValue (env.readVariable name) (env'.readVariable (σ name)) := by
  rw [readVariable, readVariable, same]
  cases env.bindings.get? name with
  | none => exact .errors _ _
  | some v =>
    cases v with
    | undefined => exact .errors _ _
    | _ => exact .refl _

/-- A tree has the same value under the new names, or none under both. Errors may differ, for they
show the names. -/
theorem evaluate_rename (h : Renames σ scope env env') (within : Within scope e) :
    SameValue (evaluate env e) (evaluate env' (e.rename σ)) := by
  induction e using children_induction with
  | step e ih =>
    have inner : ∀ child ∈ e.children,
        SameValue (evaluate env child.1) (evaluate env' (child.1.rename σ)) :=
      fun child hc => ih child hc fun name inside => within name (has_of_child hc inside)
    cases e with
    | number value => exact .refl _
    | string value => exact .refl _
    | identifier name =>
      rw [Expr.rename, evaluate, evaluate, h.builtins]
      exact .refl _
    | «variable» name => exact readVariable_rename (h.bindings name (within name (has_self _)))
    | member object property =>
      have first := inner _ List.mem_cons_self
      have second := inner _ (List.mem_cons_of_mem _ List.mem_cons_self)
      simp only [Expr.rename, evaluate, memberKey_rename, readMember_congr h.host h.input,
        apply_congr h.host h.input]
      exact first.bind fun _ => second.bind fun _ => .refl _
    | call callee arguments =>
      have first := inner _ List.mem_cons_self
      have rest : SameValue (evaluateAll env arguments)
          (evaluateAll env' (renameAll σ arguments)) := by
        apply evaluateAll_rename
        intro e he
        obtain ⟨place, hp⟩ := argumentChildren_of_mem (.call callee arguments) 0 he
        exact inner _ (List.mem_cons_of_mem _ hp)
      simp only [Expr.rename, evaluate, apply_congr h.host h.input]
      refine first.bind fun f => ?_
      cases f with
      | function f => exact rest.bind fun _ => .refl _
      | _ => exact .errors _ _
    | comparison operator left right =>
      have first := inner _ List.mem_cons_self
      have second := inner _ (List.mem_cons_of_mem _ List.mem_cons_self)
      simp only [Expr.rename, evaluate]
      exact first.bind fun _ => second.bind fun _ => .refl _

end Gatekeeper
