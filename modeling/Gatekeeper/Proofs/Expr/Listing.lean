import Gatekeeper.Expr.Walk
import Gatekeeper.Proofs.Outcome

/-!
# Walks as runs over a listing

The nodes of a tree, each with its place, listed as they are written from the left with a node
before its children. A walk is a run over this list: it shows the visitor every node of it in
order, in any monad, so it can be stopped only by what the visitor does at one of the nodes.
-/

set_option autoImplicit false

namespace Gatekeeper
open Gatekeeper.Expr

mutual

def Expr.nodes (place : Place) : Expr → List (Expr × Place)
  | .member object property =>
    (.member object property, place) ::
      (object.nodes (.child (.member object property) .object) ++
        property.nodes (.child (.member object property) .property))
  | .call callee arguments =>
    (.call callee arguments, place) ::
      (callee.nodes (.child (.call callee arguments) .callee) ++
        argumentNodes (.call callee arguments) 0 arguments)
  | .comparison operator left right =>
    (.comparison operator left right, place) ::
      (left.nodes (.child (.comparison operator left right) .left) ++
        right.nodes (.child (.comparison operator left right) .right))
  | leaf => [(leaf, place)]

def Expr.argumentNodes (parent : Expr) (index : Nat) : List Expr → List (Expr × Place)
  | [] => []
  | e :: es => e.nodes (.argument parent index) ++ argumentNodes parent (index + 1) es

end

universe u

variable {m : Type → Type u} [Monad m]

def Visitor.onKind (v : Visitor m) (place : Place) : Expr → m Unit
  | .number value => v.onNumber value place
  | .string value => v.onString value place
  | .identifier name => v.onIdentifier name place
  | .variable name => v.onVariable name place
  | .member object property => v.onMember (.member object property) place
  | .call callee arguments => v.onCall (.call callee arguments) place
  | .comparison operator left right => v.onComparison (.comparison operator left right) place

def Visitor.inspect (v : Visitor m) (node : Expr × Place) : m Unit := do
  v.onAny node.1 node.2
  v.onKind node.2 node.1

variable [LawfulMonad m]

mutual

theorem walk_eq_forM (v : Visitor m) (e : Expr) (place : Place) :
    v.walk e place = (e.nodes place).forM v.inspect := by
  match e with
  | .number value => simp [Visitor.walk, Expr.nodes, Visitor.inspect, Visitor.onKind]
  | .string value => simp [Visitor.walk, Expr.nodes, Visitor.inspect, Visitor.onKind]
  | .identifier name => simp [Visitor.walk, Expr.nodes, Visitor.inspect, Visitor.onKind]
  | .variable name => simp [Visitor.walk, Expr.nodes, Visitor.inspect, Visitor.onKind]
  | .member object property =>
    simp [Visitor.walk, Expr.nodes, Visitor.inspect, Visitor.onKind, walk_eq_forM v object,
      walk_eq_forM v property]
  | .call callee arguments =>
    simp [Visitor.walk, Expr.nodes, Visitor.inspect, Visitor.onKind, walk_eq_forM v callee,
      walkArguments_eq_forM v _ 0 arguments]
  | .comparison operator left right =>
    simp [Visitor.walk, Expr.nodes, Visitor.inspect, Visitor.onKind, walk_eq_forM v left,
      walk_eq_forM v right]

theorem walkArguments_eq_forM (v : Visitor m) (parent : Expr) (index : Nat) (es : List Expr) :
    v.walkArguments parent index es = (argumentNodes parent index es).forM v.inspect := by
  match es with
  | [] => simp [Visitor.walkArguments, argumentNodes]
  | e :: es =>
    simp [Visitor.walkArguments, argumentNodes, walk_eq_forM v e,
      walkArguments_eq_forM v parent (index + 1) es]

end

theorem nodes_self (e : Expr) (place : Place) : (e, place) ∈ e.nodes place := by
  cases e <;> simp [Expr.nodes]

theorem of_mem_argumentNodes {parent : Expr} {index : Nat} {es : List Expr} {node : Expr × Place}
    (h : node ∈ argumentNodes parent index es) : ∃ e ∈ es, ∃ place, node ∈ e.nodes place := by
  induction es generalizing index with
  | nil => simp [argumentNodes] at h
  | cons first rest ih =>
    rcases List.mem_append.1 h with here | later
    · exact ⟨first, by simp, _, here⟩
    · obtain ⟨e, he, place, hn⟩ := ih later
      exact ⟨e, by simp [he], place, hn⟩

/-! ## Listings by children -/

def Expr.argumentChildren (parent : Expr) (index : Nat) : List Expr → List (Expr × Place)
  | [] => []
  | e :: es => (e, .argument parent index) :: argumentChildren parent (index + 1) es

def Expr.children : Expr → List (Expr × Place)
  | .member object property =>
    [(object, .child (.member object property) .object),
      (property, .child (.member object property) .property)]
  | .call callee arguments =>
    (callee, .child (.call callee arguments) .callee) ::
      argumentChildren (.call callee arguments) 0 arguments
  | .comparison operator left right =>
    [(left, .child (.comparison operator left right) .left),
      (right, .child (.comparison operator left right) .right)]
  | _ => []

theorem argumentNodes_eq (parent : Expr) (index : Nat) (es : List Expr) :
    argumentNodes parent index es =
      (argumentChildren parent index es).flatMap fun child => child.1.nodes child.2 := by
  induction es generalizing index with
  | nil => rfl
  | cons e es ih => simp [argumentNodes, argumentChildren, ih]

theorem nodes_eq (e : Expr) (place : Place) :
    e.nodes place = (e, place) :: e.children.flatMap fun child => child.1.nodes child.2 := by
  cases e <;> simp [Expr.nodes, children, argumentNodes_eq]

theorem mem_argumentChildren {parent : Expr} {index : Nat} {es : List Expr} {child : Expr × Place}
    (h : child ∈ argumentChildren parent index es) :
    child.1 ∈ es ∧ ∃ i, child.2 = .argument parent i := by
  induction es generalizing index with
  | nil => cases h
  | cons e es ih =>
    rcases List.mem_cons.1 h with rfl | later
    · exact ⟨by simp, index, rfl⟩
    · obtain ⟨inside, place⟩ := ih later
      exact ⟨by simp [inside], place⟩

theorem children_smaller {e : Expr} {child : Expr × Place} (h : child ∈ e.children) :
    sizeOf child.1 < sizeOf e := by
  cases e with
  | member object property =>
    simp only [children, List.mem_cons, List.not_mem_nil, or_false] at h
    rcases h with rfl | rfl <;> simp only [member.sizeOf_spec] <;> omega
  | call callee arguments =>
    rcases List.mem_cons.1 h with rfl | inside
    · simp
      omega
    · have smaller := List.sizeOf_lt_of_mem (mem_argumentChildren inside).1
      simp
      omega
  | comparison operator left right =>
    simp only [children, List.mem_cons, List.not_mem_nil, or_false] at h
    rcases h with rfl | rfl <;> simp only [comparison.sizeOf_spec] <;> omega
  | _ => cases h

/-- Induction from the children of a tree to the tree. -/
theorem children_induction {motive : Expr → Prop}
    (step : ∀ e, (∀ child ∈ e.children, motive child.1) → motive e) (e : Expr) : motive e :=
  step e fun child _h => children_induction step child.1
termination_by sizeOf e
decreasing_by exact children_smaller _h

theorem nodes_within {e : Expr} {start : Place} {node : Expr × Place} (h : node ∈ e.nodes start) :
    ∀ inner ∈ node.1.nodes node.2, inner ∈ e.nodes start := by
  induction e using children_induction generalizing start with
  | step e ih =>
    intro inner hi
    rw [nodes_eq] at h
    rcases List.mem_cons.1 h with rfl | later
    · exact hi
    · obtain ⟨child, hc, hn⟩ := List.mem_flatMap.1 later
      rw [nodes_eq]
      exact List.mem_cons_of_mem _ (List.mem_flatMap.2 ⟨child, hc, ih child hc hn inner hi⟩)

def Expr.Has (e part : Expr) : Prop := ∃ place, (part, place) ∈ e.nodes .root

theorem has_self (e : Expr) : e.Has e := ⟨.root, nodes_self e .root⟩

/-- Where a tree stands itself makes no difference to what stands in it. -/
theorem has_iff {e part : Expr} (start : Place) :
    e.Has part ↔ ∃ place, (part, place) ∈ e.nodes start := by
  have moved : ∀ here there : Place, (∃ place, (part, place) ∈ e.nodes here) →
      ∃ place, (part, place) ∈ e.nodes there := by
    rintro here there ⟨place, h⟩
    rw [nodes_eq] at h
    rcases List.mem_cons.1 h with same | inside
    · obtain ⟨rfl, -⟩ := Prod.mk.inj same
      exact ⟨there, nodes_self _ there⟩
    · refine ⟨place, ?_⟩
      rw [nodes_eq]
      exact List.mem_cons_of_mem _ inside
  exact ⟨moved .root start, moved start .root⟩

theorem has_of_child {e part : Expr} {child : Expr × Place} (h : child ∈ e.children)
    (inside : child.1.Has part) : e.Has part := by
  obtain ⟨place, hn⟩ := (has_iff child.2).1 inside
  refine ⟨place, ?_⟩
  rw [nodes_eq]
  exact List.mem_cons_of_mem _ (List.mem_flatMap.2 ⟨child, h, hn⟩)

theorem argumentChildren_of_mem (parent : Expr) (index : Nat) {es : List Expr} {e : Expr}
    (h : e ∈ es) : ∃ place, (e, place) ∈ argumentChildren parent index es := by
  induction es generalizing index with
  | nil => cases h
  | cons first rest ih =>
    rcases List.mem_cons.1 h with rfl | later
    · exact ⟨_, List.mem_cons_self⟩
    · obtain ⟨place, hp⟩ := ih (index + 1) later
      exact ⟨place, List.mem_cons_of_mem _ hp⟩

theorem has_argument {callee e part : Expr} {es : List Expr} (h : e ∈ es) (inside : e.Has part) :
    (Expr.call callee es).Has part := by
  obtain ⟨place, hp⟩ := argumentChildren_of_mem (.call callee es) 0 h
  exact has_of_child (List.mem_cons_of_mem _ hp) inside

theorem children_isCallee {e : Expr} {child : Expr × Place} (h : child ∈ e.children)
    (isCallee : child.2.isCallee = true) : ∃ es, e = .call child.1 es := by
  cases e with
  | call callee arguments =>
    rcases List.mem_cons.1 h with rfl | inside
    · exact ⟨arguments, rfl⟩
    · obtain ⟨-, i, place⟩ := mem_argumentChildren inside
      rw [place] at isCallee
      cases isCallee
  | member object property =>
    simp only [children, List.mem_cons, List.not_mem_nil, or_false] at h
    rcases h with rfl | rfl <;> cases isCallee
  | comparison operator left right =>
    simp only [children, List.mem_cons, List.not_mem_nil, or_false] at h
    rcases h with rfl | rfl <;> cases isCallee
  | _ => cases h

/-- A node that stands as a callee is the callee of a listed call. -/
theorem callee_called {e f : Expr} {start place : Place} (h : (f, place) ∈ e.nodes start)
    (isCallee : place.isCallee = true) :
    (f = e ∧ place = start) ∨ ∃ es at', (.call f es, at') ∈ e.nodes start := by
  induction e using children_induction generalizing start with
  | step e ih =>
    rw [nodes_eq] at h ⊢
    rcases List.mem_cons.1 h with here | later
    · exact .inl (Prod.mk.inj here)
    · obtain ⟨child, hc, hn⟩ := List.mem_flatMap.1 later
      right
      obtain ⟨rfl, rfl⟩ | ⟨es, at', called⟩ := ih child hc hn
      · obtain ⟨es, rfl⟩ := children_isCallee hc isCallee
        exact ⟨es, start, List.mem_cons_self⟩
      · exact ⟨es, at', List.mem_cons_of_mem _ (List.mem_flatMap.2 ⟨child, hc, called⟩)⟩

end Gatekeeper
