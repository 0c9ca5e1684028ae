import Gatekeeper.Proofs.Disk
import Gatekeeper.Proofs.Load.Files
import Gatekeeper.Proofs.Load.Outcome

/-!
# Loads from a disk

A path has a longest length, and the search for policy files passes an entry by whose path is
longer. So a load from a disk ends as a load of the files within reach does, and this is not how a
load of all policy files ends: a file out of reach cannot be read, yet it is no fault. The two agree
exactly where no file out of reach comes before the first that cannot be read.
-/

set_option autoImplicit false

namespace Gatekeeper
open Workflow

def InReach (folder : String) (f : String × Node) : Prop :=
  (pathIn folder f.1).utf8ByteSize ≤ longestPath

instance (folder : String) (f : String × Node) : Decidable (InReach folder f) :=
  inferInstanceAs (Decidable (_ ≤ _))

/-- An entry by its path, with what is found there: the entry itself unless it is out of reach. -/
def foundAt (d : Disk) (folder : String) (f : String × Node) :
    String × Except ReadFailure Node :=
  (pathIn folder f.1, if InReach folder f then .ok f.2 else d.find (pathIn folder f.1))

def withinReach (d : Disk) (folder : String) (files : List (String × Node)) :
    List (String × Except ReadFailure Node) :=
  (files.filter (InReach folder ·)).map (foundAt d folder)

theorem foundAt_in_reach {d : Disk} {folder : String} {f : String × Node}
    (near : InReach folder f) : foundAt d folder f = (pathIn folder f.1, .ok f.2) := by
  rw [foundAt, if_pos near]

/-- For names that systems allow this is what a search for the path finds. -/
theorem foundAt_eq_find {d : Disk} {folder : String} {entries : List (String × Node)}
    {f : String × Node} (found : d.find folder = .ok (.folder entries))
    (distinct : (entries.map (·.1)).Nodup) (here : f ∈ entries) (isName : IsEntryName f.1) :
    foundAt d folder f = (pathIn folder f.1, d.find (pathIn folder f.1)) := by
  by_cases near : InReach folder f
  · have entry := entry?_eq_some distinct here
    rw [foundAt_in_reach near, Disk.find_entry found isName entry near]
  · rw [foundAt, if_neg near]

theorem fails_out_of_reach {d : Disk} {folder : String} {f : String × Node}
    (far : ¬ InReach folder f) : FailsToRead (foundAt d folder f) .unreadable := by
  obtain ⟨failure, missing⟩ := d.find_too_long (Nat.lt_of_not_le far)
  refine .inl ⟨rfl, failure, ?_⟩
  rw [foundAt, if_neg far, missing]
  rfl

theorem reads_or_fails (file : String × Except ReadFailure Node) :
    (∃ s, ReadsAs file s) ∨ ∃ cause, FailsToRead file cause := by
  cases read : readSource file.1 file.2 with
  | ok s => exact .inl ⟨s, readSource_eq_ok.1 read⟩
  | error e =>
    obtain ⟨cause, failure, -⟩ := readSource_eq_error.1 read
    exact .inr ⟨cause, failure⟩

theorem FailsToRead.not_reads {file : String × Except ReadFailure Node} {cause : Error}
    {s : PolicySource} (failure : FailsToRead file cause) : ¬ ReadsAs file s := by
  intro reads
  have read := readSource_eq_ok.2 reads
  rw [readSource_eq_error.2 ⟨cause, failure, rfl⟩] at read
  cases read

/-- An error is told with the path of one of the files. -/
theorem LoadEnds.origin {b : Builtins} {allow : Bool}
    {files : List (String × Except ReadFailure Node)} {path : String} {cause : Error}
    (ends : LoadEnds b allow files (.error (.inDocument path cause))) :
    ∃ f ∈ files, f.1 = path := by
  cases ends with
  | unread first failure => exact ⟨_, first.mem, rfl⟩
  | uncompiled read first failure =>
    obtain ⟨f, hf, reads⟩ := of_forall₂_right read first.mem
    exact ⟨f, hf, reads.1.symm⟩
  | repeated read compiles forbidden distinct earlier same =>
    obtain ⟨f, hf, reads⟩ := of_forall₂_right read (List.mem_append_right _ List.mem_cons_self)
    exact ⟨f, hf, reads.1.symm⟩

variable {settings : Settings} {b : Builtins} {available : Nat} {d : Disk}
variable {entries files : List (String × Node)}

theorem loadRegistry_eq_loadFiles {listing : Listing} :
    loadRegistry settings b available (some listing) = loadFiles b settings.allowDuplicates
      ((policyFiles listing).map fun f => (pathIn settings.folder f.1, .ok f.2)) := by
  simp only [loadRegistry, compileAll_eq_mapM, loadFiles, discover, policyFolder]
  show readSources (((policyFiles listing).map _).map _) >>= _ = _
  rw [List.map_map]
  rfl

theorem mem_map_lookAt {folder : String} {f : String × Node} :
    (f.1, .ok f.2) ∈ entries.map (lookAt folder) ↔ f ∈ entries ∧ InReach folder f := by
  rw [List.mem_map]
  constructor
  · rintro ⟨⟨name, node⟩, here, shown⟩
    unfold lookAt at shown
    split at shown
    · rename_i near
      cases shown
      exact ⟨here, near⟩
    · cases shown
  · rintro ⟨here, near⟩
    have shown : lookAt folder f = (f.1, .ok f.2) := congrArg (Prod.mk f.1) (if_pos near)
    exact ⟨f, here, shown⟩

/-- A search takes the policy files within reach for policy files, and no others. -/
theorem policyFiles_lookAt (folder : String) (distinct : (entries.map (·.1)).Nodup)
    (listing : Lists entries files) :
    policyFiles (entries.map (lookAt folder)) = files.filter (InReach folder ·) := by
  have names : ((entries.map (lookAt folder)).map (·.1)).Nodup := by
    rw [List.map_map]
    exact distinct
  have taken : Lists (entries.filter (InReach folder ·))
      (policyFiles (entries.map (lookAt folder))) := by
    constructor
    · exact (policyFiles_ascending names).imp fun less => lt_iff_utf8Bytes_lt.1 less
    · intro f
      rw [mem_policyFiles, mem_map_lookAt, List.mem_filter, decide_eq_true_eq]
  exact taken.unique (listing.filter _)

/-- The files that a load from a disk takes are those within reach. -/
theorem loadRegistry_folderAt (found : d.find settings.folder = .ok (.folder entries))
    (distinct : (entries.map (·.1)).Nodup) (listing : Lists entries files) :
    loadRegistry settings b available (d.folderAt? settings.folder) =
      loadFiles b settings.allowDuplicates (withinReach d settings.folder files) := by
  have listed : d.folderAt? settings.folder = some (entries.map (lookAt settings.folder)) := by
    rw [Disk.folderAt?, found]
  rw [listed, loadRegistry_eq_loadFiles, policyFiles_lookAt _ distinct listing, withinReach]
  congr 1
  apply List.map_congr_left
  intro f hf
  rw [foundAt_in_reach (by simpa using (List.mem_filter.1 hf).2)]

theorem in_reach_of_reads {folder : String} {f : String × Node} {s : PolicySource}
    (reads : ReadsAs (foundAt d folder f) s) : InReach folder f := by
  by_contra far
  exact (fails_out_of_reach far).not_reads reads

variable {folder : String} {allow : Bool} {f : String × Node} {cause : Error}

/-- Where the first file that cannot be read is within reach the load ends at it. -/
theorem unread_in_reach (first : Reached (fun g => ∃ s, ReadsAs (foundAt d folder g) s) files f)
    (near : InReach folder f) (failure : FailsToRead (foundAt d folder f) cause) :
    loadFiles b allow (withinReach d folder files) =
      .error (.inDocument (pathIn folder f.1) cause) := by
  have kept : Reached (fun g => ∃ s, ReadsAs (foundAt d folder g) s)
      (files.filter (InReach folder ·)) f := first.filter _ (by simpa using near)
  exact (LoadEnds.unread (kept.map (foundAt d folder)) failure).loadFiles_eq

theorem far_not_blamed (far : ¬ InReach folder f) :
    loadFiles b allow (withinReach d folder files) ≠
      .error (.inDocument (pathIn folder f.1) cause) := by
  intro blamed
  have ends : LoadEnds b allow (withinReach d folder files) _ := loadFiles_ends
  rw [blamed] at ends
  obtain ⟨found, here, path⟩ := ends.origin
  obtain ⟨g, hg, rfl⟩ := List.mem_map.1 here
  have near : InReach folder g := by simpa using (List.mem_filter.1 hg).2
  have same : pathIn folder g.1 = pathIn folder f.1 := path
  rw [InReach, same] at near
  exact far near

theorem ends_as_all_iff : LoadEnds b allow (files.map (foundAt d folder))
      (loadFiles b allow (withinReach d folder files)) ↔
    (∀ f ∈ files, InReach folder f) ∨
      ∃ f cause, Reached (fun g => ∃ s, ReadsAs (foundAt d folder g) s) files f ∧
        InReach folder f ∧ FailsToRead (foundAt d folder f) cause := by
  constructor
  · intro ends
    rcases all_or_reached (fun g => ∃ s, ReadsAs (foundAt d folder g) s) files with
      all | ⟨f, first, unread⟩
    · refine .inl fun f hf => ?_
      obtain ⟨s, reads⟩ := all f hf
      exact in_reach_of_reads reads
    · by_cases near : InReach folder f
      · rcases reads_or_fails (foundAt d folder f) with reads | ⟨cause, failure⟩
        · exact absurd reads unread
        · exact .inr ⟨f, cause, first, near, failure⟩
      · have stop : loadFiles b allow (files.map (foundAt d folder)) =
            .error (.inDocument (pathIn folder f.1) .unreadable) :=
          (LoadEnds.unread (first.map (foundAt d folder)) (fails_out_of_reach near)).loadFiles_eq
        rw [ends.loadFiles_eq] at stop
        exact absurd stop (far_not_blamed near)
  · rintro (all | ⟨f, cause, first, near, failure⟩)
    · have whole : files.filter (InReach folder ·) = files := by
        rw [List.filter_eq_self]
        intro f hf
        simpa using all f hf
      rw [withinReach, whole]
      exact loadFiles_ends
    · rw [unread_in_reach first near failure]
      exact .unread (first.map (foundAt d folder)) failure

/-- A load from a disk is a load of the policy files within reach, in byte order of their names,
however the folder is listed and however many threads compile. It ends as a load of all policy
files must exactly where all are within reach or the first that cannot be read is. What stands for a
file here is what a search for its path finds. -/
theorem load_from_disk (d : Disk) (settings : Settings) (b : Builtins) (available : Nat)
    {entries files : List (String × Node)}
    (found : d.find settings.folder = .ok (.folder entries))
    (distinct : (entries.map (·.1)).Nodup) (listing : Lists entries files) :
    (∀ result, loadRegistry settings b available (d.folderAt? settings.folder) = result ↔
      LoadEnds b settings.allowDuplicates (withinReach d settings.folder files) result) ∧
    (LoadEnds b settings.allowDuplicates (files.map (foundAt d settings.folder))
        (loadRegistry settings b available (d.folderAt? settings.folder)) ↔
      (∀ f ∈ files, InReach settings.folder f) ∨
        ∃ f cause, Reached (fun g => ∃ s, ReadsAs (foundAt d settings.folder g) s) files f ∧
          InReach settings.folder f ∧ FailsToRead (foundAt d settings.folder f) cause) ∧
    ∀ f ∈ files, IsEntryName f.1 → foundAt d settings.folder f =
      (pathIn settings.folder f.1, d.find (pathIn settings.folder f.1)) := by
  have load : loadRegistry settings b available (d.folderAt? settings.folder) =
      loadFiles b settings.allowDuplicates (withinReach d settings.folder files) :=
    loadRegistry_folderAt found distinct listing
  rw [load]
  refine ⟨fun result => ⟨?_, fun ends => ends.loadFiles_eq⟩, ends_as_all_iff, ?_⟩
  · rintro rfl
    exact loadFiles_ends
  · intro f hf isName
    exact foundAt_eq_find found distinct ((listing.members f).1 hf).1 isName

def lockedEntries : List (String × Node) :=
  [("b.json", .file none), ("old.json", .folder []), ("a.JSON", .file none)]

def lockedDisk : Disk := ⟨.folder [("policies", .folder lockedEntries)], []⟩

theorem locked_found : lockedDisk.find Settings.standard.folder = .ok (.folder lockedEntries) := by
  rfl

theorem locked_lists : Lists lockedEntries [("a.JSON", .file none), ("b.json", .file none)] := by
  constructor
  · have order : utf8Bytes "a.JSON" < utf8Bytes "b.json" := by decide +kernel
    simpa using order
  · intro f
    have policies : isPolicyName "a.JSON" = true ∧ isPolicyName "b.json" = true := by decide +kernel
    rw [← isPolicyName_eq_true, lockedEntries]
    simp only [List.mem_cons, List.not_mem_nil, or_false]
    constructor
    · rintro (rfl | rfl)
      · exact ⟨by simp, ⟨_, rfl⟩, policies.1⟩
      · exact ⟨by simp, ⟨_, rfl⟩, policies.2⟩
    · rintro ⟨rfl | rfl | rfl, ⟨contents, isFile⟩, -⟩
      · exact .inr rfl
      · cases isFile
      · exact .inl rfl

/-- The first in byte order is blamed, not the first that is listed. -/
theorem load_from_disk_locked : loadRegistry .standard .standard 8
    (lockedDisk.folderAt? Settings.standard.folder) =
      .error (.inDocument "policies/a.JSON" .unreadable) := by
  have distinct : (lockedEntries.map (·.1)).Nodup := by decide
  have load := load_from_disk lockedDisk .standard .standard 8 locked_found distinct locked_lists
  have taken : withinReach lockedDisk Settings.standard.folder
      [("a.JSON", .file none), ("b.json", .file none)] =
      [("policies/a.JSON", .ok (.file none)), ("policies/b.json", .ok (.file none))] := by rfl
  rw [load.1, taken]
  exact .unread (reached_cons.2 (.inl rfl)) (.inl ⟨rfl, .denied, rfl⟩)

end Gatekeeper
