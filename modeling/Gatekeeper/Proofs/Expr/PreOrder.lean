import Gatekeeper.Proofs.Expr.Listing

/-!
# Routes in a tree

A route leads from the root of a tree to one of its nodes, by the number of a child at each step.
The listing of a tree holds every node once, in the order of the routes as words: a node stands
before all that is under it, and what is under one child before the next child.
-/

set_option autoImplicit false

namespace Gatekeeper
open Gatekeeper.Expr

def Expr.under (e : Expr) (place : Place) : List Nat → Option (Expr × Place)
  | [] => some (e, place)
  | i :: route => e.children[i]?.bind fun child => child.1.under child.2 route

/-- Nodes by their routes, in the order of the routes as words, and no node left out. -/
structure Expr.PreOrder (e : Expr) (place : Place) (entries : List (List Nat × Expr × Place)) :
    Prop where
  ascending : entries.Pairwise fun a b => a.1 < b.1
  whole : ∀ route node, (route, node) ∈ entries ↔ e.under place route = some node

/-- The nodes under the children of a tree, the children being counted from a number on. -/
theorem children_preOrder {cs : List (Expr × Place)} (first : Nat)
    (each : ∀ c ∈ cs, ∃ entries, c.1.PreOrder c.2 entries ∧
      entries.map Prod.snd = c.1.nodes c.2) :
    ∃ entries : List (List Nat × Expr × Place),
      (entries.Pairwise fun a b => a.1 < b.1) ∧
      entries.map Prod.snd = cs.flatMap (fun c => c.1.nodes c.2) ∧
      ∀ route node, (route, node) ∈ entries ↔ ∃ i rest, route = (first + i) :: rest ∧
        (cs[i]?.bind fun c => c.1.under c.2 rest) = some node := by
  induction cs generalizing first with
  | nil => exact ⟨[], .nil, rfl, by simp⟩
  | cons c cs ih =>
    obtain ⟨⟨here, ordered, listed⟩, others⟩ := List.forall_mem_cons.1 each
    obtain ⟨later, ascending, listedLater, wholeLater⟩ := ih (first + 1) others
    refine ⟨here.map (fun entry => (first :: entry.1, entry.2)) ++ later, ?_, ?_, ?_⟩
    · -- Routes into one child differ after their first step, those into later children at it.
      refine List.pairwise_append.2 ⟨?_, ascending, ?_⟩
      · refine List.pairwise_map.2 (ordered.ascending.imp fun less => ?_)
        exact List.cons_lt_cons_iff.2 (.inr ⟨rfl, less⟩)
      · rintro _ inside ⟨route, node⟩ after
        obtain ⟨entry, -, rfl⟩ := List.mem_map.1 inside
        obtain ⟨i, rest, rfl, -⟩ := (wholeLater route node).1 after
        exact List.cons_lt_cons_iff.2 (.inl (by omega))
    · rw [List.map_append, List.map_map, List.flatMap_cons, ← listed, ← listedLater]
      rfl
    · intro route node
      rw [List.mem_append, wholeLater]
      constructor
      · rintro (inside | ⟨i, rest, rfl, found⟩)
        · obtain ⟨⟨rest, node⟩, listed, same⟩ := List.mem_map.1 inside
          cases same
          exact ⟨0, rest, rfl, (ordered.whole rest node).1 listed⟩
        · exact ⟨i + 1, rest, by rw [Nat.add_assoc, Nat.add_comm 1], found⟩
      · rintro ⟨_ | i, rest, rfl, found⟩
        · exact .inl (List.mem_map.2 ⟨(rest, node), (ordered.whole rest node).2 found, rfl⟩)
        · exact .inr ⟨i, rest, by rw [Nat.add_assoc, Nat.add_comm 1], found⟩

/-- The listing of a tree is its pre-order. -/
theorem nodes_preOrder (e : Expr) (place : Place) : ∃ entries,
    e.PreOrder place entries ∧ entries.map Prod.snd = e.nodes place := by
  induction e using children_induction generalizing place with
  | step e ih =>
    obtain ⟨entries, ascending, listed, whole⟩ := children_preOrder 0 fun c hc => ih c hc c.2
    refine ⟨([], e, place) :: entries, ⟨?_, ?_⟩, ?_⟩
    · refine List.pairwise_cons.2 ⟨?_, ascending⟩
      rintro ⟨route, node⟩ inside
      obtain ⟨i, rest, rfl, -⟩ := (whole route node).1 inside
      exact List.nil_lt_cons _ _
    · intro route node
      rw [List.mem_cons, whole]
      cases route with
      | nil => simp [under, eq_comm]
      | cons i rest => simp [under]
    · rw [List.map_cons, listed, nodes_eq]

theorem under_concat (e : Expr) (place : Place) (route : List Nat) (i : Nat) :
    e.under place (route ++ [i]) =
      (e.under place route).bind fun above => above.1.children[i]? := by
  induction route generalizing e place with
  | nil =>
    simp only [List.nil_append, under, Option.bind_some]
    cases e.children[i]? <;> rfl
  | cons j route ih =>
    simp only [List.cons_append, under, Option.bind_assoc]
    congr 1
    funext child
    exact ih child.1 child.2

theorem argumentChildren_getElem? (parent : Expr) (index i : Nat) (es : List Expr) :
    (argumentChildren parent index es)[i]? =
      es[i]?.map fun e => (e, Place.argument parent (index + i)) := by
  induction es generalizing index i with
  | nil => rfl
  | cons e es ih =>
    cases i with
    | zero => rfl
    | succ i =>
      rw [argumentChildren, List.getElem?_cons_succ, List.getElem?_cons_succ, ih]
      congr 2
      funext e
      rw [Nat.add_assoc, Nat.add_comm 1]

theorem child_isCallee {e node : Expr} {place : Place} {i : Nat}
    (found : e.children[i]? = some (node, place)) :
    place.isCallee = true ↔ i = 0 ∧ ∃ es, e = .call node es := by
  constructor
  · intro isCallee
    obtain ⟨es, rfl⟩ := children_isCallee (List.mem_of_getElem? found) isCallee
    refine ⟨?_, es, rfl⟩
    cases i with
    | zero => rfl
    | succ i =>
      rw [children, List.getElem?_cons_succ, argumentChildren_getElem?] at found
      obtain ⟨e, -, same⟩ := Option.map_eq_some_iff.1 found
      rw [← (Prod.mk.inj same).2] at isCallee
      cases isCallee
  · rintro ⟨rfl, es, rfl⟩
    cases found
    rfl

/-- What stands at the end of a route is a callee if the route goes to a call and from there to its
first child. -/
theorem isCallee_iff (e node : Expr) (route : List Nat) :
    (∃ place, e.under .root route = some (node, place) ∧ place.isCallee = true) ↔
      ∃ above es outer, route = above ++ [0] ∧
        e.under .root above = some (.call node es, outer) := by
  rcases List.eq_nil_or_concat' route with rfl | ⟨above, i, rfl⟩
  · constructor
    · rintro ⟨place, found, isCallee⟩
      cases found
      cases isCallee
    · rintro ⟨above, es, outer, same, -⟩
      simp at same
  · simp only [under_concat, Option.bind_eq_some_iff, List.append_singleton_inj]
    constructor
    · rintro ⟨place, ⟨⟨parent, outer⟩, reached, found⟩, isCallee⟩
      obtain ⟨rfl, es, rfl⟩ := (child_isCallee found).1 isCallee
      exact ⟨above, es, outer, ⟨rfl, rfl⟩, reached⟩
    · rintro ⟨_, es, outer, ⟨rfl, rfl⟩, reached⟩
      exact ⟨_, ⟨_, reached, rfl⟩, rfl⟩

end Gatekeeper
