import Gatekeeper.Proofs.Expr.PreOrder

/-!
# The calls of a walk

A walk makes two calls a node: the node as any node, and the node as one of its kind. Nodes come in
pre-order, and the walk ends with the first call that fails. Visitors keep a state that outlives a
failure, so a walk that has failed still shows in it which calls were made.
-/

set_option autoImplicit false

namespace Gatekeeper

inductive Showing
  | any (node : Expr) (place : Place)
  | number (value : Number) (place : Place)
  | string (value : String) (place : Place)
  | identifier (name : String) (place : Place)
  | variable (name : String) (place : Place)
  | member (node : Expr) (place : Place)
  | call (node : Expr) (place : Place)
  | comparison (node : Expr) (place : Place)

def Showing.ofKind (place : Place) : Expr → Showing
  | .number value => .number value place
  | .string value => .string value place
  | .identifier name => .identifier name place
  | .variable name => .variable name place
  | .member object property => .member (.member object property) place
  | .call callee arguments => .call (.call callee arguments) place
  | .comparison operator left right => .comparison (.comparison operator left right) place

def Showing.ofNode (node : Expr × Place) : List Showing :=
  [.any node.1 node.2, .ofKind node.2 node.1]

def Expr.showings (e : Expr) : List Showing := (e.nodes .root).flatMap Showing.ofNode

universe u

def Visitor.answer {m : Type → Type u} (v : Visitor m) : Showing → m Unit
  | .any node place => v.onAny node place
  | .number value place => v.onNumber value place
  | .string value place => v.onString value place
  | .identifier name place => v.onIdentifier name place
  | .variable name place => v.onVariable name place
  | .member node place => v.onMember node place
  | .call node place => v.onCall node place
  | .comparison node place => v.onComparison node place

section

variable {m : Type → Type u} [Monad m] [LawfulMonad m]

theorem inspect_eq_answers (v : Visitor m) (node : Expr × Place) :
    v.inspect node = (Showing.ofNode node).forM v.answer := by
  obtain ⟨e, place⟩ := node
  cases e <;> simp [Visitor.inspect, Visitor.onKind, Showing.ofNode, Showing.ofKind, Visitor.answer]

theorem forM_flatMap {α β : Type} (f : β → m Unit) (g : α → List β) (xs : List α) :
    (xs.flatMap g).forM f = xs.forM fun x => (g x).forM f := by
  induction xs with
  | nil => rfl
  | cons x xs ih =>
    simp only [List.forM_eq_forM] at ih ⊢
    rw [List.flatMap_cons, List.forM_append, List.forM_cons, ih]

/-- A walk is its calls, one after another. -/
theorem visit_eq_answers (v : Visitor m) (e : Expr) : v.visit e = e.showings.forM v.answer := by
  rw [Visitor.visit, walk_eq_forM, Expr.showings, forM_flatMap]
  congr 1
  funext node
  exact inspect_eq_answers v node

end

/-! ## Visitors with a state -/

/-- Computations that may fail, and that keep what they have done to their state if they do. -/
abbrev Keeping (ε σ : Type) := ExceptT ε (StateM σ)

variable {ε σ α β : Type}

def Keeping.runFrom (x : Keeping ε σ α) (s : σ) : Except ε α × σ := (x.run.run s).run

theorem runFrom_bind (x : Keeping ε σ α) (f : α → Keeping ε σ β) (s : σ) :
    Keeping.runFrom (x >>= f) s =
      match x.runFrom s with
      | (.ok a, t) => (f a).runFrom t
      | (.error fault, t) => (.error fault, t) := by
  simp only [Keeping.runFrom, ExceptT.run_bind, StateT.run_bind, Id.run_bind]
  rcases (x.run.run s).run with ⟨fault | a, t⟩ <;> rfl

inductive Visitor.Accepts (v : Visitor (Keeping ε σ)) : σ → List Showing → σ → Prop
  | nil (s : σ) : v.Accepts s [] s
  | cons {s between t : σ} {c : Showing} {cs : List Showing}
      (here : (v.answer c).runFrom s = (.ok (), between)) (rest : v.Accepts between cs t) :
      v.Accepts s (c :: cs) t

def Visitor.record (v : Visitor (Keeping ε σ)) (c : Showing) :
    Keeping ε (List Showing × σ) Unit :=
  ExceptT.mk fun (made, s) =>
    let ended := (v.answer c).runFrom s
    (ended.1, (made ++ [c], ended.2))

def Visitor.recorded (v : Visitor (Keeping ε σ)) : Visitor (Keeping ε (List Showing × σ)) where
  onAny node place := v.record (.any node place)
  onNumber value place := v.record (.number value place)
  onString value place := v.record (.string value place)
  onIdentifier name place := v.record (.identifier name place)
  onVariable name place := v.record (.variable name place)
  onMember node place := v.record (.member node place)
  onCall node place := v.record (.call node place)
  onComparison node place := v.record (.comparison node place)

variable {v : Visitor (Keeping ε σ)} {s between t : σ} {c : Showing} {cs before : List Showing}
variable {fault : ε}

theorem Visitor.Accepts.forM (h : v.Accepts s cs t) :
    (cs.forM v.answer).runFrom s = (.ok (), t) := by
  induction h with
  | nil => rfl
  | cons here _ ih =>
    rw [List.forM_eq_forM] at ih ⊢
    rw [List.forM_cons, runFrom_bind, here]
    exact ih

theorem Visitor.Accepts.forM_fails (h : v.Accepts s before between)
    (fails : (v.answer c).runFrom between = (.error fault, t)) (after : List Showing) :
    ((before ++ c :: after).forM v.answer).runFrom s = (.error fault, t) := by
  induction h with
  | nil =>
    rw [List.forM_eq_forM, List.nil_append, List.forM_cons, runFrom_bind, fails]
  | cons here _ ih =>
    rw [List.forM_eq_forM] at ih ⊢
    rw [List.cons_append, List.forM_cons, runFrom_bind, here]
    exact ih fails

theorem Visitor.accepts_or_fails (v : Visitor (Keeping ε σ)) (s : σ) (cs : List Showing) :
    (∃ t, v.Accepts s cs t) ∨ ∃ before c after between fault t, cs = before ++ c :: after ∧
      v.Accepts s before between ∧ (v.answer c).runFrom between = (.error fault, t) := by
  induction cs generalizing s with
  | nil => exact .inl ⟨s, .nil s⟩
  | cons c cs ih =>
    -- A failure here is the first; else the rest goes on from the state this call has left.
    rcases here : (v.answer c).runFrom s with ⟨fault | ⟨⟩, next⟩
    · exact .inr ⟨[], c, cs, s, fault, next, rfl, .nil s, here⟩
    · rcases ih next with ⟨t, rest⟩ | ⟨before, c', after, between, fault, t, rfl, rest, fails⟩
      · exact .inl ⟨t, .cons here rest⟩
      · exact .inr ⟨c :: before, c', after, between, fault, t, rfl, .cons here rest, fails⟩

theorem recorded_answer (v : Visitor (Keeping ε σ)) (c : Showing) (made : List Showing) (s : σ) :
    (v.recorded.answer c).runFrom (made, s) =
      (((v.answer c).runFrom s).1, (made ++ [c], ((v.answer c).runFrom s).2)) := by
  cases c <;> rfl

theorem Visitor.Accepts.recorded (h : v.Accepts s cs t) (made : List Showing) :
    v.recorded.Accepts (made, s) cs (made ++ cs, t) := by
  induction h generalizing made with
  | nil s =>
    rw [List.append_nil]
    exact .nil _
  | @cons s between t c cs here _ ih =>
    have first : (v.recorded.answer c).runFrom (made, s) = (.ok (), (made ++ [c], between)) := by
      rw [recorded_answer, here]
    have rest := ih (made ++ [c])
    rw [List.append_assoc, List.singleton_append] at rest
    exact .cons first rest

/-- A walk calls a visitor for the nodes of a tree in pre-order, each of them by its place: first as
any node, then as one of its kind. It makes all calls if none fails; else it ends with the first
that fails and returns its error. Callees are shown as such, and nothing else is. -/
theorem visits_in_preOrder (v : Visitor (Keeping ε σ)) (e : Expr) (s : σ) :
    (∃ entries, e.PreOrder .root entries ∧
      e.showings = entries.flatMap fun entry => Showing.ofNode entry.2) ∧
    (∀ route node,
      (∃ place, e.under .root route = some (node, place) ∧ place.isCallee = true) ↔
        ∃ above arguments outer, route = above ++ [0] ∧
          e.under .root above = some (.call node arguments, outer)) ∧
    ((∃ t, v.Accepts s e.showings t ∧ (v.visit e).runFrom s = (.ok (), t) ∧
        (v.recorded.visit e).runFrom ([], s) = (.ok (), (e.showings, t))) ∨
      ∃ before c after between fault t, e.showings = before ++ c :: after ∧
        v.Accepts s before between ∧ (v.answer c).runFrom between = (.error fault, t) ∧
        (v.visit e).runFrom s = (.error fault, t) ∧
        (v.recorded.visit e).runFrom ([], s) = (.error fault, (before ++ [c], t))) := by
  obtain ⟨entries, ordered, listed⟩ := nodes_preOrder e .root
  refine ⟨⟨entries, ordered, ?_⟩, fun route node => isCallee_iff e node route, ?_⟩
  · rw [Expr.showings, ← listed, List.flatMap_map]
  · rw [visit_eq_answers, visit_eq_answers]
    rcases v.accepts_or_fails s e.showings with
      ⟨t, run⟩ | ⟨before, c, after, between, fault, t, split, run, fails⟩
    · exact .inl ⟨t, run, run.forM, (run.recorded []).forM⟩
    · have recorded : (v.recorded.answer c).runFrom (before, between) =
          (.error fault, (before ++ [c], t)) := by rw [recorded_answer, fails]
      refine .inr ⟨before, c, after, between, fault, t, split, run, fails, ?_, ?_⟩
      · rw [split]
        exact run.forM_fails fails after
      · rw [split]
        exact (run.recorded []).forM_fails recorded after

/-- A visitor that counts nodes and fails at texts sees three nodes of this call. -/
example :
    let v : Visitor (Keeping String Nat) :=
      { Visitor.indifferent with
        onAny := fun _ _ => modify (· + 1)
        onString := fun s _ => throw s }
    (v.visit (.call (.identifier "in") [.string "stop", .variable "never"])).runFrom 0 =
      (.error "stop", 3) := by
  rfl

end Gatekeeper
