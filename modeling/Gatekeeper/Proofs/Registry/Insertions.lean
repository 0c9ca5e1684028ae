import Gatekeeper.Proofs.Registry
import Mathlib.Data.List.Dedup
import Mathlib.Data.List.Induction
import Mathlib.Data.List.Nodup

/-!
# Runs of insertions

A registry that workflows are inserted into one by one, each on its own terms about duplicates. The
log says which were taken in. From it all that the registry holds can be told: under each id the
last workflow taken in with it, and no more entries than ids, whatever was refused or replaced on
the way.
-/

set_option autoImplicit false

namespace Gatekeeper

structure Insertion where
  workflow : Workflow
  allowDuplicates : Bool

abbrev InsertionLog := List (Insertion × Except Error Unit)

namespace Registry

def offer (r : Registry) (i : Insertion) : Except Error Unit × Registry :=
  match r.insert i.workflow i.allowDuplicates with
  | .ok next => (.ok (), next)
  | .error e => (.error e, r)

def offerAll (r : Registry) : List Insertion → InsertionLog × Registry
  | [] => ([], r)
  | i :: is =>
    let (outcome, next) := r.offer i
    let (log, last) := next.offerAll is
    ((i, outcome) :: log, last)

theorem offerAll_concat (r : Registry) (is : List Insertion) (i : Insertion) :
    r.offerAll (is ++ [i]) = ((r.offerAll is).1 ++ [(i, ((r.offerAll is).2.offer i).1)],
      ((r.offerAll is).2.offer i).2) := by
  induction is generalizing r with
  | nil => rfl
  | cons j is ih => simp only [List.cons_append, offerAll, ih]

theorem offerAll_log (r : Registry) (is : List Insertion) :
    (r.offerAll is).1.map Prod.fst = is := by
  induction is generalizing r with
  | nil => rfl
  | cons i is ih => rw [offerAll, List.map_cons, ih]

def Taken (id : String) (entry : Insertion × Except Error Unit) : Prop :=
  entry.2 = .ok () ∧ entry.1.workflow.policyId = id

structure Reflects (r : Registry) (log : InsertionLog) : Prop where
  latest : ∀ id w, r.get? id = some w ↔
    ∃ entry, IsLast (Taken id) log entry ∧ entry.1.workflow = w
  kept : ∀ entry ∈ log, ∃ w, r.get? entry.1.workflow.policyId = some w

variable {r : Registry} {log : InsertionLog} {id : String} {w : Workflow} {i : Insertion}

theorem contains_eq_true : r.contains id = true ↔ ∃ w, r.get? id = some w :=
  Option.isSome_iff_exists

theorem contains_eq_false : r.contains id = false ↔ r.get? id = none := by
  rw [contains, NameMap.contains, Option.isSome_eq_false_iff, Option.isNone_iff_eq_none]
  rfl

/-- A workflow is refused if its id is there and duplicates are not allowed, and else taken in. -/
theorem offer_cases (r : Registry) (i : Insertion) :
    (r.contains i.workflow.policyId = true ∧ i.allowDuplicates = false ∧
      ∃ fault, r.offer i = (.error (.duplicatePolicy fault), r)) ∨
    ((r.contains i.workflow.policyId = false ∨ i.allowDuplicates = true) ∧
      r.offer i = (.ok (), ⟨r.workflows.insert i.workflow.policyId i.workflow⟩)) := by
  unfold offer
  cases result : r.insert i.workflow i.allowDuplicates with
  | ok next =>
    obtain ⟨terms, rfl⟩ := insert_eq_ok.1 result
    exact .inr ⟨terms.symm.imp_left contains_eq_false.2, rfl⟩
  | error e =>
    obtain ⟨refuses, existing, found, rfl⟩ := insert_eq_error.1 result
    exact .inl ⟨contains_eq_true.2 ⟨existing, found⟩, refuses, _, rfl⟩

theorem offer_refuses : (∃ e, (r.offer i).1 = .error e) ↔
    r.contains i.workflow.policyId = true ∧ i.allowDuplicates = false := by
  rcases r.offer_cases i with ⟨present, refuses, fault, refused⟩ | ⟨terms, taken⟩
  · simp [refused, present, refuses]
  · rw [taken]
    constructor
    · rintro ⟨e, failed⟩
      cases failed
    · rintro ⟨present, refuses⟩
      simp [present, refuses] at terms

theorem offer_refused : (∃ e, (r.offer i).1 = .error e) ↔
    ∃ fault, r.offer i = (.error (.duplicatePolicy fault), r) := by
  rcases r.offer_cases i with ⟨-, -, fault, refused⟩ | ⟨-, taken⟩
  · simp [refused]
  · simp [taken]

theorem reflects_empty : Reflects .empty [] where
  latest id w := by
    constructor
    · intro found
      cases found
    · rintro ⟨entry, last, -⟩
      exact absurd last (isLast_nil _ _)
  kept := nofun

theorem Reflects.offer (h : Reflects r log) (i : Insertion) :
    Reflects (r.offer i).2 (log ++ [(i, (r.offer i).1)]) := by
  rcases r.offer_cases i with ⟨present, -, fault, refused⟩ | ⟨-, taken⟩
  · rw [refused]
    have untaken : ∀ id, ¬ Taken id (i, .error (.duplicatePolicy fault)) := nofun
    refine ⟨fun id w => ?_, ?_⟩
    · simp only [h.latest, isLast_concat_iff, untaken, false_and, false_or, not_false_eq_true,
        true_and]
    · exact List.forall_mem_append.2 ⟨h.kept, by simpa using contains_eq_true.1 present⟩
  · rw [taken]
    have found : ∀ id, Registry.get? ⟨r.workflows.insert i.workflow.policyId i.workflow⟩ id =
        if i.workflow.policyId = id then some i.workflow else r.get? id :=
      fun id => NameMap.get?_insert r.workflows i.workflow.policyId id i.workflow
    refine ⟨fun id w => ?_, List.forall_mem_append.2 ⟨fun entry he => ?_, ?_⟩⟩
    · rw [found]
      by_cases same : i.workflow.policyId = id
      · have took : Taken id (i, .ok ()) := ⟨rfl, same⟩
        simp [same, isLast_concat_iff, took]
      · have other : ¬ Taken id (i, .ok ()) := fun took => same took.2
        simp only [same, if_false, h.latest, isLast_concat_iff, other, false_and, false_or,
          not_false_eq_true, true_and]
    · rw [found]
      split
      · exact ⟨_, rfl⟩
      · exact h.kept entry he
    · simp [found]

theorem reflects_offerAll (is : List Insertion) :
    Reflects (empty.offerAll is).2 (empty.offerAll is).1 := by
  induction is using List.reverseRecOn with
  | nil => exact reflects_empty
  | append_singleton is i ih =>
    rw [offerAll_concat]
    exact ih.offer i

/-! ## What a registry that reflects its log is like -/

theorem Reflects.policyId_eq (h : Reflects r log) (found : r.get? id = some w) :
    w.policyId = id := by
  obtain ⟨entry, last, rfl⟩ := (h.latest id w).1 found
  exact last.mem.2.2

theorem Reflects.contains_iff (h : Reflects r log) :
    r.contains id = true ↔ ∃ entry ∈ log, entry.1.workflow.policyId = id := by
  rw [contains_eq_true]
  constructor
  · rintro ⟨w, found⟩
    obtain ⟨entry, last, -⟩ := (h.latest id w).1 found
    exact ⟨entry, last.mem.1, last.mem.2.2⟩
  · rintro ⟨entry, inLog, rfl⟩
    exact h.kept entry inLog

/-- Every entry stands under the id of its workflow. -/
theorem Reflects.keys (h : Reflects r log) {entry : String × Workflow}
    (inside : entry ∈ r.workflows.entries) : entry.2.policyId = entry.1 :=
  h.policyId_eq ((NameMap.lookup_eq_some r.workflows.ascending).2 inside)

theorem Reflects.toList_ids (h : Reflects r log) : r.toList.map Workflow.policyId = r.ids := by
  rw [toList, NameMap.values, List.map_map]
  exact List.map_congr_left fun entry inside => h.keys inside

/-- There are as many entries as there are different ids in the log. -/
theorem Reflects.size_eq (h : Reflects r log) :
    r.size = (log.map fun entry => entry.1.workflow.id).dedup.length := by
  have inLog : ∀ id, id ∈ r.ids ↔
      id ∈ ((log.map fun entry => entry.1.workflow.id).map Gatekeeper.policyId).dedup := by
    intro id
    rw [mem_ids, ← contains_eq_true, h.contains_iff, List.mem_dedup, List.map_map, List.mem_map]
    rfl
  have permuted := (List.perm_ext_iff_of_nodup (ids_nodup r) (List.nodup_dedup _)).2 inLog
  rw [List.dedup_map_of_injective policyId_injective] at permuted
  calc r.size = r.ids.length := (List.length_map _).symm
    _ = _ := permuted.length_eq
    _ = _ := List.length_map _

variable {is : List Insertion}

theorem contains_offerAll : (empty.offerAll is).2.contains id = true ↔
    ∃ i ∈ is, i.workflow.policyId = id := by
  rw [(reflects_offerAll is).contains_iff]
  constructor
  · rintro ⟨entry, inLog, named⟩
    exact ⟨entry.1, offerAll_log empty is ▸ List.mem_map_of_mem inLog, named⟩
  · rintro ⟨i, inserted, named⟩
    rw [← offerAll_log empty is] at inserted
    obtain ⟨entry, inLog, rfl⟩ := List.mem_map.1 inserted
    exact ⟨entry, inLog, named⟩

theorem size_offerAll : (empty.offerAll is).2.size =
    (is.map fun i => i.workflow.id).dedup.length := by
  have size := (reflects_offerAll is).size_eq
  rwa [← Function.comp_def (fun i : Insertion => i.workflow.id) Prod.fst, ← List.map_map,
    offerAll_log] at size

/-! ## Registries of whole lists -/

theorem nodup_ids {ws : List Workflow} :
    (ws.map Workflow.policyId).Nodup ↔ (ws.map (·.id)).Nodup := by
  rw [← List.nodup_map_iff policyId_injective, List.map_map]
  rfl

theorem isLast_of_nodup {ws : List Workflow} (distinct : (ws.map Workflow.policyId).Nodup) :
    IsLast (fun x => x.policyId = id) ws w ↔ w ∈ ws ∧ w.policyId = id := by
  refine ⟨IsLast.mem, fun ⟨inside, named⟩ => ?_⟩
  rcases none_or_isLast (fun x : Workflow => x.policyId = id) ws with none | ⟨x, last⟩
  · exact absurd named (none w inside)
  · obtain rfl : x = w :=
      List.inj_on_of_nodup_map distinct last.mem.1 inside (last.mem.2.trans named.symm)
    exact last

theorem ofWorkflows_perm {ws ws' : List Workflow} (permuted : ws.Perm ws')
    (distinct : (ws.map (·.id)).Nodup) (allow allow' : Bool) :
    ∃ r, ofWorkflows ws allow = .ok r ∧ ofWorkflows ws' allow' = .ok r := by
  have apart := nodup_ids.2 distinct
  have apart' := (permuted.map Workflow.policyId).nodup_iff.1 apart
  obtain ⟨r, built⟩ := ofWorkflows_succeeds.2 (.inr apart)
  obtain ⟨r', built'⟩ := ofWorkflows_succeeds.2 (.inr apart')
  have same : r' = r := eq_of_get? fun id w => by
    rw [get?_ofWorkflows built, get?_ofWorkflows built', isLast_of_nodup apart,
      isLast_of_nodup apart', permuted.mem_iff]
  exact ⟨r, built, same ▸ built'⟩

/-- Whatever is inserted into an empty registry, on whatever terms: all keys are the decimal ids of
their workflows; an insertion fails, and changes nothing, exactly if the id is there and duplicates
are not allowed; an id leads to the last workflow that was taken in with it; there are as many
entries as different ids, in ascending order. A list of workflows makes a registry without
duplicates exactly if its ids differ, and then its order makes no difference. -/
theorem insertions_exact (is : List Insertion) :
    (∃ log r, empty.offerAll is = (log, r) ∧ log.map Prod.fst = is ∧
      (∀ next, empty.offerAll (is ++ [next]) =
          (log ++ [(next, (r.offer next).1)], (r.offer next).2) ∧
        ((∃ e, (r.offer next).1 = .error e) ↔
          r.contains next.workflow.policyId = true ∧ next.allowDuplicates = false) ∧
        ((∃ e, (r.offer next).1 = .error e) ↔
          ∃ fault, r.offer next = (.error (.duplicatePolicy fault), r))) ∧
      (∀ entry ∈ r.workflows.entries, entry.1 = toString entry.2.id.toNat) ∧
      (∀ id w, r.get? id = some w ↔ ∃ entry,
        IsLast (fun x => x.2 = .ok () ∧ toString x.1.workflow.id.toNat = id) log entry ∧
          entry.1.workflow = w) ∧
      (∀ id, r.get? id = none ↔ r.contains id = false) ∧
      (∀ id, r.contains id = true ↔ ∃ i ∈ is, toString i.workflow.id.toNat = id) ∧
      r.size = (is.map fun i => i.workflow.id).dedup.length ∧
      r.ids.Pairwise (· < ·) ∧ r.toList.map (fun w => toString w.id.toNat) = r.ids) ∧
    (∀ ws : List Workflow, (∃ r, ofWorkflows ws false = .ok r) ↔ (ws.map (·.id)).Nodup) ∧
    ∀ (ws ws' : List Workflow) (r : Registry) (allow : Bool), ws.Perm ws' →
      ofWorkflows ws false = .ok r → ofWorkflows ws' allow = .ok r := by
  have lists : ∀ ws : List Workflow,
      (∃ r, ofWorkflows ws false = .ok r) ↔ (ws.map (·.id)).Nodup := by
    intro ws
    rw [ofWorkflows_succeeds, nodup_ids, or_iff_right Bool.false_ne_true]
  have h := reflects_offerAll is
  refine ⟨⟨_, _, rfl, offerAll_log _ is, fun next => ?_, ?_⟩, lists, ?_⟩
  · exact ⟨offerAll_concat _ is next, offer_refuses, offer_refused⟩
  · exact ⟨fun entry inside => (h.keys inside).symm, h.latest, fun id => contains_eq_false.symm,
      fun id => contains_offerAll, size_offerAll, NameMap.names_ascending _, h.toList_ids⟩
  · intro ws ws' r allow permuted built
    have distinct := (lists ws).1 ⟨r, built⟩
    obtain ⟨r', built', same⟩ := ofWorkflows_perm permuted distinct false allow
    rw [built] at built'
    cases built'
    exact same

def desk (id : UInt64) (name : String) : Workflow := ⟨id, name, ⟨"/desk/*"⟩, [], []⟩

def deskInsertions : List Insertion :=
  [⟨desk 10 "front", false⟩, ⟨desk 9 "back", false⟩, ⟨desk 10 "side", false⟩,
    ⟨desk 9 "rear", true⟩]

/-- The side desk is refused, the rear desk replaces the one at the back, and two entries remain. -/
theorem insertions_exact_desks :
    (empty.offerAll deskInsertions).2.size = 2 ∧
      (empty.offerAll deskInsertions).2.get? "9" = some (desk 9 "rear") ∧
      ofWorkflows [desk 9 "rear", desk 10 "front"] true =
        ofWorkflows [desk 10 "front", desk 9 "rear"] false := by
  obtain ⟨⟨log, r, run, -, -, -, latest, -, -, size, -, -⟩, lists, orders⟩ :=
    insertions_exact deskInsertions
  rw [run]
  refine ⟨size, (latest _ _).2 ⟨(⟨desk 9 "rear", true⟩, .ok ()), ?_, rfl⟩, ?_⟩
  · cases run
    exact isLast_concat [_, _, _] ⟨rfl, rfl⟩
  · obtain ⟨built, made⟩ := (lists [desk 10 "front", desk 9 "rear"]).2 (by decide)
    rw [made]
    exact orders _ _ _ _ (.swap _ _ _) made

end Registry

end Gatekeeper
