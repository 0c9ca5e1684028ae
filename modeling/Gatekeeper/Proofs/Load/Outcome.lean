import Gatekeeper.Proofs.Load.Stages
import Gatekeeper.Proofs.Workflow.Compile
import Mathlib.Data.List.Nodup

/-!
# How a load ends

The end of a load told of the files alone. It ends at the first file that cannot be read, or else at
the first that does not compile, or else at the first whose id was there before; or else every file
is in the registry, unless a later one has its id.
-/

set_option autoImplicit false

namespace Gatekeeper
open Workflow

variable {b : Builtins} {allow : Bool} {pairs : List (PolicySource × Workflow)}

def Compiled (b : Builtins) (pairs : List (PolicySource × Workflow)) : Prop :=
  ∀ p ∈ pairs, compile p.1.document b = .ok p.2

theorem compile_source {s : PolicySource} {w : Workflow} :
    s.compile b = .ok w ↔ compile s.document b = .ok w := by
  rw [PolicySource.compile, reportIn_eq_ok]

theorem compiled_zip {sources : List PolicySource} {workflows : List Workflow}
    (h : sources.mapM (PolicySource.compile b) = .ok workflows) :
    Compiled b (sources.zip workflows) ∧ (sources.zip workflows).map (·.1) = sources ∧
      (sources.zip workflows).map (·.2) = workflows := by
  have related := mapM_eq_ok.1 h
  have lengths := related.length_eq
  have each : Compiled b (sources.zip workflows) := by
    rintro ⟨s, w⟩ here
    exact compile_source.1 ((List.forall₂_iff_zip.1 related).2 here)
  exact ⟨each, List.map_fst_zip (by omega), List.map_snd_zip (by omega)⟩

theorem Compiled.policyIds (compiled : Compiled b pairs) :
    (pairs.map (·.2)).map Workflow.policyId = (pairs.map (·.1.document.id)).map policyId := by
  rw [List.map_map, List.map_map]
  apply List.map_congr_left
  intro p hp
  show policyId p.2.id = policyId p.1.document.id
  rw [compile_id (compiled p hp)]

theorem Compiled.merges_iff (compiled : Compiled b pairs) :
    (∃ r, Registry.ofWorkflows (pairs.map (·.2)) allow = .ok r) ↔
      allow = true ∨ (pairs.map (·.1.document.id)).Nodup := by
  rw [Registry.ofWorkflows_succeeds, compiled.policyIds, List.nodup_map_iff policyId_injective]

theorem Compiled.get?_eq_some (compiled : Compiled b pairs) {r : Registry}
    (merged : Registry.ofWorkflows (pairs.map (·.2)) allow = .ok r) {id : String} {w : Workflow} :
    r.get? id = some w ↔ ∃ s, IsLast (fun t => policyId t.document.id = id) (pairs.map (·.1)) s ∧
      compile s.document b = .ok w := by
  have images : (pairs.map (·.1)).mapM (fun s => compile s.document b) =
      .ok (pairs.map (·.2)) := by
    rw [mapM_eq_ok, List.forall₂_map_left_iff, List.forall₂_map_right_iff, List.forall₂_same]
    exact compiled
  rw [Registry.get?_ofWorkflows merged]
  apply isLast_mapM images
  intro s x hx
  rw [Workflow.policyId, compile_id hx]

/-- Where no id occurs twice, an id leads to the workflow of any source that has it. -/
theorem Compiled.get?_of_mem (compiled : Compiled b pairs)
    (distinct : (pairs.map (·.1.document.id)).Nodup) {r : Registry}
    (merged : Registry.ofWorkflows (pairs.map (·.2)) allow = .ok r)
    {q : PolicySource × Workflow} (hq : q ∈ pairs) :
    r.get? (policyId q.1.document.id) = some q.2 := by
  rw [compiled.get?_eq_some merged]
  rcases none_or_isLast (fun t : PolicySource => policyId t.document.id = policyId q.1.document.id)
    (pairs.map (·.1)) with none | ⟨s, last⟩
  · exact absurd rfl (none q.1 (List.mem_map_of_mem hq))
  · obtain ⟨p, hp, rfl⟩ := List.mem_map.1 last.mem.1
    have same : p = q := List.inj_on_of_nodup_map distinct hp hq (policyId_inj.1 last.mem.2)
    subst same
    exact ⟨p.1, last, compiled p hp⟩

/-- Of sources that compile the first whose id was there before is refused. -/
theorem Compiled.merge_eq_error (compiled : Compiled b pairs) {e : Error} :
    merge allow .empty pairs = .error e ↔ allow = false ∧ ∃ before p after q,
      pairs = before ++ p :: after ∧ (before.map (·.1.document.id)).Nodup ∧ q ∈ before ∧
        q.1.document.id = p.1.document.id ∧ e = .inDocument p.1.origin (.duplicatePolicy
          (.sameId (policyId p.1.document.id) q.1.document.name p.1.document.name)) := by
  rw [Gatekeeper.merge_eq_error]
  constructor
  · rintro ⟨before, s, w, after, r₁, cause, rfl, run, refused, rfl⟩
    obtain ⟨rfl, existing, found, rfl⟩ := Registry.insert_eq_error.1 refused
    have earlier : Compiled b before := fun p hp => compiled p (by simp [hp])
    have here : compile s.document b = .ok w := compiled (s, w) (by simp)
    have distinct := (earlier.merges_iff.1 ⟨r₁, run⟩).resolve_left Bool.false_ne_true
    obtain ⟨t, last, ht⟩ := (earlier.get?_eq_some run).1 found
    obtain ⟨q, hq, rfl⟩ := List.mem_map.1 last.mem.1
    have named : w.policyId = policyId s.document.id := by rw [Workflow.policyId, compile_id here]
    have same : q.1.document.id = s.document.id := policyId_inj.1 (by rw [last.mem.2, named])
    refine ⟨rfl, before, (s, w), after, q, rfl, distinct, hq, same, ?_⟩
    rw [named, compile_name here, compile_name ht]
  · rintro ⟨rfl, before, ⟨s, w⟩, after, q, rfl, distinct, hq, same, rfl⟩
    have earlier : Compiled b before := fun p hp => compiled p (by simp [hp])
    have here : compile s.document b = .ok w := compiled (s, w) (by simp)
    have named : w.policyId = policyId s.document.id := by rw [Workflow.policyId, compile_id here]
    obtain ⟨r₁, run⟩ : ∃ r, Registry.ofWorkflows (before.map (·.2)) false = .ok r :=
      earlier.merges_iff.2 (.inr distinct)
    have found : r₁.get? w.policyId = some q.2 := by
      rw [named, ← same]
      exact earlier.get?_of_mem distinct run hq
    refine ⟨before, s, w, after, r₁, _, rfl, run,
      Registry.insert_eq_error.2 ⟨rfl, q.2, found, rfl⟩, ?_⟩
    rw [named, compile_name here, compile_name (earlier q hq)]

/-- How a load of files ends that are taken in order. Sources stand for the files they are read
from, and name them as their origins. -/
inductive LoadEnds (b : Builtins) (allow : Bool)
    (files : List (String × Except ReadFailure Node)) : Except Error Registry → Prop
  | unread {f : String × Except ReadFailure Node} {cause : Error}
      (first : Reached (fun g => ∃ s, ReadsAs g s) files f) (failure : FailsToRead f cause) :
      LoadEnds b allow files (.error (.inDocument f.1 cause))
  | uncompiled {sources : List PolicySource} {s : PolicySource} {cause : Error}
      (read : List.Forall₂ ReadsAs files sources)
      (first : Reached (fun t => Compiles t.document b) sources s)
      (failure : compile s.document b = .error cause) :
      LoadEnds b allow files (.error (.inDocument s.origin cause))
  | repeated {before after : List PolicySource} {s t : PolicySource}
      (read : List.Forall₂ ReadsAs files (before ++ s :: after))
      (compiles : ∀ x ∈ before ++ s :: after, Compiles x.document b) (forbidden : allow = false)
      (distinct : (before.map (·.document.id)).Nodup) (earlier : t ∈ before)
      (same : t.document.id = s.document.id) :
      LoadEnds b allow files (.error (.inDocument s.origin (.duplicatePolicy
        (.sameId (policyId s.document.id) t.document.name s.document.name))))
  | loaded {sources : List PolicySource} {registry : Registry}
      (read : List.Forall₂ ReadsAs files sources) (compiles : ∀ x ∈ sources, Compiles x.document b)
      (permitted : allow = true ∨ (sources.map (·.document.id)).Nodup)
      (holds : ∀ id w, registry.get? id = some w ↔
        ∃ s, IsLast (fun t => policyId t.document.id = id) sources s ∧
          compile s.document b = .ok w) :
      LoadEnds b allow files (.ok registry)

def loadFiles (b : Builtins) (allow : Bool) (files : List (String × Except ReadFailure Node)) :
    Except Error Registry := do
  let sources ← readSources files
  let workflows ← sources.mapM (PolicySource.compile b)
  merge allow .empty (sources.zip workflows)

variable {files : List (String × Except ReadFailure Node)} {sources : List PolicySource}

theorem readSources_eq_ok : readSources files = .ok sources ↔
    List.Forall₂ ReadsAs files sources := by
  simp only [readSources_eq_mapM, mapM_eq_ok, readSource_eq_ok]

theorem readSources_eq_error {e : Error} : readSources files = .error e ↔
    ∃ f cause, Reached (fun g => ∃ s, ReadsAs g s) files f ∧ FailsToRead f cause ∧
      e = .inDocument f.1 cause := by
  simp only [readSources_eq_mapM, mapM_eq_error, readSource_eq_ok, readSource_eq_error,
    exists_and_left]

theorem compileSources_succeeds :
    (∃ workflows, sources.mapM (PolicySource.compile b) = .ok workflows) ↔
      ∀ s ∈ sources, Compiles s.document b := by
  simp only [mapM_succeeds, compile_source, Compiles]

theorem compileSources_eq_error {e : Error} : sources.mapM (PolicySource.compile b) = .error e ↔
    ∃ s cause, Reached (fun t => Compiles t.document b) sources s ∧
      compile s.document b = .error cause ∧ e = .inDocument s.origin cause := by
  simp only [mapM_eq_error, PolicySource.compile, reportIn_eq_ok,
    reportIn_eq_error, Compiles, exists_and_left]

theorem loadFiles_unread {e : Error} (read : readSources files = .error e) :
    loadFiles b allow files = .error e := by
  rw [loadFiles, read]
  rfl

theorem loadFiles_uncompiled {e : Error} (read : readSources files = .ok sources)
    (compiled : sources.mapM (PolicySource.compile b) = .error e) :
    loadFiles b allow files = .error e := by
  rw [loadFiles, read]
  show (sources.mapM (PolicySource.compile b) >>= _) = _
  rw [compiled]
  rfl

theorem loadFiles_merge {workflows : List Workflow} (read : readSources files = .ok sources)
    (compiled : sources.mapM (PolicySource.compile b) = .ok workflows) :
    loadFiles b allow files = merge allow .empty (sources.zip workflows) := by
  rw [loadFiles, read]
  show (sources.mapM (PolicySource.compile b) >>= _) = _
  rw [compiled]
  rfl

/-- The merge of all sources ends as it must where all have been read and compiled. -/
theorem merge_ends {workflows : List Workflow} (read : List.Forall₂ ReadsAs files sources)
    (compiled : sources.mapM (PolicySource.compile b) = .ok workflows) :
    LoadEnds b allow files (merge allow .empty (sources.zip workflows)) := by
  have compiles := compileSources_succeeds.1 ⟨workflows, compiled⟩
  obtain ⟨each, fsts, -⟩ := compiled_zip compiled
  cases merged : merge allow .empty (sources.zip workflows) with
  | error e =>
    obtain ⟨forbidden, before, p, after, q, split, distinct, hq, same, rfl⟩ :=
      each.merge_eq_error.1 merged
    rw [split, List.map_append, List.map_cons] at fsts
    rw [← fsts] at read compiles
    have distinct' : ((before.map (·.1)).map (·.document.id)).Nodup := by
      rw [List.map_map]
      exact distinct
    exact .repeated read compiles forbidden distinct' (List.mem_map_of_mem hq) same
  | ok r =>
    have run := merge_eq_ok.1 merged
    have permitted : allow = true ∨ (sources.map (·.document.id)).Nodup := by
      rw [← fsts, List.map_map]
      exact each.merges_iff.1 ⟨r, run⟩
    apply LoadEnds.loaded read compiles permitted
    intro id w
    rw [each.get?_eq_some run, fsts]

theorem loadFiles_ends : LoadEnds b allow files (loadFiles b allow files) := by
  cases read : readSources files with
  | error e =>
    obtain ⟨f, cause, first, failure, rfl⟩ := readSources_eq_error.1 read
    rw [loadFiles_unread read]
    exact .unread first failure
  | ok sources =>
    cases compiled : sources.mapM (PolicySource.compile b) with
    | error e =>
      obtain ⟨s, cause, first, failure, rfl⟩ := compileSources_eq_error.1 compiled
      rw [loadFiles_uncompiled read compiled]
      exact .uncompiled (readSources_eq_ok.1 read) first failure
    | ok workflows =>
      rw [loadFiles_merge read compiled]
      exact merge_ends (readSources_eq_ok.1 read) compiled

theorem LoadEnds.loadFiles_eq {result : Except Error Registry}
    (ends : LoadEnds b allow files result) : loadFiles b allow files = result := by
  cases ends with
  | unread first failure =>
    exact loadFiles_unread (readSources_eq_error.2 ⟨_, _, first, failure, rfl⟩)
  | uncompiled read first failure =>
    exact loadFiles_uncompiled (readSources_eq_ok.2 read)
      (compileSources_eq_error.2 ⟨_, _, first, failure, rfl⟩)
  | repeated read compiles forbidden distinct earlier same =>
    obtain ⟨workflows, compiled⟩ := compileSources_succeeds.2 compiles
    obtain ⟨each, fsts, -⟩ := compiled_zip compiled
    obtain ⟨before, rest, split, rfl, tail⟩ := List.map_eq_append_iff.1 fsts
    obtain ⟨p, after, rfl, rfl, -⟩ := List.map_eq_cons_iff.1 tail
    obtain ⟨q, hq, rfl⟩ := List.mem_map.1 earlier
    rw [List.map_map] at distinct
    rw [loadFiles_merge (readSources_eq_ok.2 read) compiled]
    exact each.merge_eq_error.2 ⟨forbidden, before, p, after, q, split, distinct, hq, same, rfl⟩
  | @loaded sources registry read compiles permitted holds =>
    obtain ⟨workflows, compiled⟩ := compileSources_succeeds.2 compiles
    obtain ⟨each, fsts, -⟩ := compiled_zip compiled
    rw [← fsts, List.map_map] at permitted
    obtain ⟨r, run⟩ := each.merges_iff.2 permitted
    have same : r = registry := by
      apply Registry.eq_of_get?
      intro id w
      rw [each.get?_eq_some run, fsts, holds]
    rw [loadFiles_merge (readSources_eq_ok.2 read) compiled, ← same]
    exact merge_eq_ok.2 run

end Gatekeeper
