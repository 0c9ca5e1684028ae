import Gatekeeper.Proofs.NameMap
import Gatekeeper.Proofs.Outcome
import Gatekeeper.Registry
import Std.Data.String.ToNat

/-!
# What a registry holds

Under an id a registry holds the last workflow inserted with it, be duplicates allowed or not; where
they are not allowed, there is only one. An insertion that is refused names the workflow that is
there already.
-/

set_option autoImplicit false

namespace Gatekeeper

theorem policyId_inj {x y : UInt64} : policyId x = policyId y ↔ x = y := by
  rw [policyId, policyId, ← UInt64.toNat_inj]
  exact Nat.repr_inj

theorem policyId_injective : Function.Injective policyId := fun _ _ same => policyId_inj.1 same

namespace Registry

variable {r r' : Registry} {w : Workflow} {ws : List Workflow} {allow : Bool} {id : String}
variable {e : Error}

theorem eq_of_get? (same : ∀ id w, r.get? id = some w ↔ r'.get? id = some w) : r = r' := by
  obtain ⟨m⟩ := r
  obtain ⟨m'⟩ := r'
  have equal : m = m' := NameMap.eq_of_get? fun id => Option.ext (same id)
  rw [equal]

theorem mem_ids : id ∈ r.ids ↔ ∃ w, r.get? id = some w := NameMap.mem_names

theorem ids_nodup (r : Registry) : r.ids.Nodup :=
  r.workflows.names_ascending.imp fun less => String.ne_of_lt less

theorem size_counts (r : Registry) : ∃ ids : List String, ids.Nodup ∧ ids.length = r.size ∧
    ∀ id, id ∈ ids ↔ ∃ w, r.get? id = some w :=
  ⟨r.ids, r.ids_nodup, List.length_map _, fun _ => mem_ids⟩

theorem insert_eq_ok : r.insert w allow = .ok r' ↔
    (allow = true ∨ r.get? w.policyId = none) ∧ r' = ⟨r.workflows.insert w.policyId w⟩ := by
  unfold insert
  cases found : r.get? w.policyId with
  | none => simp [eq_comm]
  | some existing => cases allow <;> simp [eq_comm]

theorem insert_eq_error : r.insert w allow = .error e ↔
    allow = false ∧ ∃ existing, r.get? w.policyId = some existing ∧
      e = .duplicatePolicy (.sameId w.policyId existing.name w.name) := by
  unfold insert
  cases found : r.get? w.policyId with
  | none => simp
  | some existing => cases allow <;> simp [eq_comm]

theorem get?_insert (h : r.insert w allow = .ok r') :
    r'.get? id = if w.policyId = id then some w else r.get? id := by
  obtain ⟨-, rfl⟩ := insert_eq_ok.1 h
  exact NameMap.get?_insert r.workflows w.policyId id w

theorem insertAll_cons : r.insertAll allow (w :: ws) = .ok r' ↔
    ∃ r₁, r.insert w allow = .ok r₁ ∧ r₁.insertAll allow ws = .ok r' := by
  rw [insertAll, bind_eq_ok]

/-- An id leads to the last of the inserted workflows that has it, or else to what was there. -/
theorem get?_insertAll (h : r.insertAll allow ws = .ok r') : r'.get? id = some w ↔
    IsLast (fun x => x.policyId = id) ws w ∨
      ((∀ x ∈ ws, x.policyId ≠ id) ∧ r.get? id = some w) := by
  induction ws generalizing r with
  | nil =>
    cases h
    simp [isLast_nil]
  | cons x ws ih =>
    obtain ⟨r₁, first, rest⟩ := insertAll_cons.1 h
    rw [ih rest, isLast_cons, get?_insert first]
    by_cases same : x.policyId = id
    · have present : ¬ ∀ y ∈ x :: ws, y.policyId ≠ id := fun absent => absent x (by simp) same
      rw [if_pos same, Option.some.injEq, eq_comm]
      tauto
    · rw [if_neg same, List.forall_mem_cons]
      tauto

theorem get?_ofWorkflows (h : ofWorkflows ws allow = .ok r) : r.get? id = some w ↔
    IsLast (fun x => x.policyId = id) ws w := by
  have nothing : (empty.get? id : Option Workflow) ≠ some w := nofun
  rw [get?_insertAll h]
  tauto

/-- All are taken in if duplicates are allowed, or else if no id occurs twice. -/
theorem insertAll_succeeds : (∃ r', r.insertAll allow ws = .ok r') ↔ allow = true ∨
    ((ws.map Workflow.policyId).Nodup ∧ ∀ w ∈ ws, r.get? w.policyId = none) := by
  induction ws generalizing r with
  | nil => simp [insertAll]
  | cons w ws ih =>
    have step : (∃ r', r.insertAll allow (w :: ws) = .ok r') ↔
        ∃ r₁, r.insert w allow = .ok r₁ ∧ ∃ r', r₁.insertAll allow ws = .ok r' := by
      simp only [insertAll_cons]
      constructor
      · rintro ⟨r', r₁, first, rest⟩
        exact ⟨r₁, first, r', rest⟩
      · rintro ⟨r₁, first, r', rest⟩
        exact ⟨r', r₁, first, rest⟩
    rw [step, List.map_cons, List.nodup_cons, List.forall_mem_cons]
    constructor
    · rintro ⟨r₁, first, rest⟩
      rcases (insert_eq_ok.1 first).1 with allowed | fresh
      · exact .inl allowed
      rcases ih.1 rest with allowed | ⟨distinct, free⟩
      · exact .inl allowed
      have other : ∀ x ∈ ws, w.policyId ≠ x.policyId ∧ r.get? x.policyId = none := by
        intro x hx
        have absent := free x hx
        rw [get?_insert first] at absent
        by_cases same : w.policyId = x.policyId
        · rw [if_pos same] at absent
          cases absent
        · rw [if_neg same] at absent
          exact ⟨same, absent⟩
      have absent : w.policyId ∉ ws.map Workflow.policyId := by
        intro repeated
        obtain ⟨x, hx, same⟩ := List.mem_map.1 repeated
        exact (other x hx).1 same.symm
      exact .inr ⟨⟨absent, distinct⟩, fresh, fun x hx => (other x hx).2⟩
    · rintro (allowed | ⟨⟨unrepeated, distinct⟩, fresh, free⟩)
      · exact ⟨_, insert_eq_ok.2 ⟨.inl allowed, rfl⟩, ih.2 (.inl allowed)⟩
      · have first : r.insert w allow = .ok ⟨r.workflows.insert w.policyId w⟩ :=
          insert_eq_ok.2 ⟨.inr fresh, rfl⟩
        have rest : ∀ x ∈ ws,
            Registry.get? ⟨r.workflows.insert w.policyId w⟩ x.policyId = none := by
          intro x hx
          have different : w.policyId ≠ x.policyId := by
            intro same
            exact unrepeated (same ▸ List.mem_map_of_mem hx)
          rw [get?_insert first, if_neg different]
          exact free x hx
        exact ⟨_, first, ih.2 (.inr ⟨distinct, rest⟩)⟩

theorem ofWorkflows_succeeds : (∃ r, ofWorkflows ws allow = .ok r) ↔
    allow = true ∨ (ws.map Workflow.policyId).Nodup := by
  have nothing : ∀ w ∈ ws, (empty.get? w.policyId : Option Workflow) = none := fun _ _ => rfl
  rw [ofWorkflows, insertAll_succeeds]
  tauto

end Registry

end Gatekeeper
