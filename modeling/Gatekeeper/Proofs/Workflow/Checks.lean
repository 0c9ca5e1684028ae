import Gatekeeper.Proofs.Eval.Faults

/-!
# What the checks pass

The trees that the two static checks pass, told without a walk and in both directions. A parameter's
tree is a reference to a word or a visible variable and to members of it; in a rule's tree every
variable is declared and every callee is a word for a function, wherever they stand.
-/

set_option autoImplicit false

namespace Gatekeeper

inductive Reference (visible : List String) : Expr → Prop
  | variable {name : String} (isVisible : name ∈ visible) : Reference visible (.variable name)
  | identifier (name : String) : Reference visible (.identifier name)
  | member {object : Expr} (key : String) (inner : Reference visible object) :
      Reference visible (.member object (.identifier key))

structure Grounded (b : Builtins) (declared : List String) (e : Expr) : Prop where
  scope : ∀ name place, (.variable name, place) ∈ e.nodes .root → name ∈ declared
  callees : ∀ callee arguments place, (.call callee arguments, place) ∈ e.nodes .root →
    ∃ name f, callee = .identifier name ∧ b.get? name = some (.function f)

namespace Workflow
open Grammar

variable {b : Builtins} {visible declared : List String} {e : Expr} {ts : List Token}

/-! ## Parameters -/

def Refers (visible : List String) : Expr → Prop
  | .variable name => name ∈ visible
  | .identifier _ => True
  | .member .. => True
  | _ => False

theorem paramCheck_inspect {node : Expr × Place} :
    (paramCheck visible).inspect node = .ok () ↔ Refers visible node.1 := by
  obtain ⟨e, place⟩ := node
  rw [inspect_eq_ok]
  cases e with
  | «variable» name => exact (and_iff_right rfl).trans checkVariable_eq_ok
  | identifier | member => exact ⟨fun _ => trivial, fun _ => ⟨rfl, rfl⟩⟩
  | number | string | call | comparison =>
    constructor
    · rintro ⟨any, -⟩
      cases any
    · exact False.elim

theorem paramCheck_visit : (paramCheck visible).visit e = .ok () ↔
    ∀ node ∈ e.nodes .root, Refers visible node.1 := by
  rw [visit_eq_ok]
  exact forall₂_congr fun _ _ => paramCheck_inspect

theorem reference_refers (reference : Reference visible e) (place : Place) :
    ∀ node ∈ e.nodes place, Refers visible node.1 := by
  induction reference generalizing place with
  | «variable» isVisible => simpa [Expr.nodes, Refers] using isVisible
  | identifier name => simp [Expr.nodes, Refers]
  | member key inner ih => simpa [Expr.nodes, Refers, or_imp, forall_and] using ih _

theorem reference_congr {more : List String} (same : ∀ name, name ∈ visible ↔ name ∈ more) :
    Reference visible e ↔ Reference more e := by
  constructor
  · intro h
    induction h with
    | «variable» isVisible => exact .variable ((same _).1 isVisible)
    | identifier name => exact .identifier name
    | member key inner ih => exact .member key ih
  · intro h
    induction h with
    | «variable» isVisible => exact .variable ((same _).2 isVisible)
    | identifier name => exact .identifier name
    | member key inner ih => exact .member key ih

theorem path_reference {place : Place} (path : Path ts e)
    (refers : ∀ node ∈ e.nodes place, Refers visible node.1) : Reference visible e := by
  induction path generalizing place with
  | operand here =>
    have root := refers _ (nodes_self _ place)
    cases here with
    | «variable» => exact .variable root
    | identifier => exact .identifier _
    | number | string => exact root.elim
  | step before isDot isName ih =>
    have inner := ih fun node hn => refers node (by
      rw [Expr.nodes]
      exact List.mem_cons_of_mem _ (List.mem_append_left _ hn))
    exact .member _ inner

/-- Of what the grammar derives a parameter's check passes the references. -/
theorem paramCheck_eq_ok (sentence : Sentence ts e) :
    (paramCheck visible).visit e = .ok () ↔ Reference visible e := by
  rw [paramCheck_visit]
  constructor
  · intro refers
    have root := refers _ (nodes_self e .root)
    cases sentence with
    | called called =>
      cases called with
      | path path => exact path_reference path refers
      | call => exact root.elim
    | comparison => exact root.elim
  · intro reference
    exact reference_refers reference .root

/-! ## Rules -/

/-- A rule's check asks for a word at the call and for its function where the word stands. -/
theorem ruleCheck_eq_ok :
    (ruleCheck b declared).visit e = .ok () ↔ Grounded b declared e := by
  rw [ruleCheck_visit]
  constructor
  · intro resolved
    refine ⟨fun name place hn => resolved _ hn, fun callee arguments place hn => ?_⟩
    obtain ⟨name, rfl⟩ : ∃ name, callee = .identifier name := resolved _ hn
    have isFunction : b.isFunction name = true := by
      have shown := nodes_within hn
        (.identifier name, .child (.call (.identifier name) arguments) .callee)
        (by simp [Expr.nodes])
      exact resolved _ shown rfl
    obtain ⟨f, found⟩ := isFunction_eq_true.1 isFunction
    exact ⟨name, f, rfl, found⟩
  · rintro ⟨scope, callees⟩ ⟨f, place⟩ hn
    cases f with
    | «variable» name => exact scope name place hn
    | call callee arguments =>
      obtain ⟨name, f, rfl, -⟩ := callees callee arguments place hn
      exact ⟨name, rfl⟩
    | identifier name =>
      intro isCallee
      obtain ⟨-, rfl⟩ | ⟨es, at', called⟩ := callee_called hn isCallee
      · cases isCallee
      · obtain ⟨_, f, ⟨⟩, found⟩ := callees _ es at' called
        exact isFunction_eq_true.2 ⟨f, found⟩
    | _ => trivial

end Workflow

end Gatekeeper
