import Gatekeeper.Load
import Gatekeeper.Proofs.NameMap
import Gatekeeper.Proofs.Text.ByteOrder

/-!
# Policy files

Which entries of a folder are policy files and in which order they are taken, told without any
sorting: there is only one list in byte order that has just these files. So it does not depend on
the order in which the system lists the folder.
-/

set_option autoImplicit false

namespace Gatekeeper

def EndsInJson (name : String) : Prop :=
  ∃ stem ext, name.toList = stem ++ '.' :: ext ∧ stem ≠ [] ∧
    ext.map Char.toLower = ['j', 's', 'o', 'n']

theorem split_at_last_point {cs stem ext : List Char} (split : cs = stem ++ '.' :: ext)
    (pointless : '.' ∉ ext) : cs.reverse.dropWhile (· != '.') = '.' :: stem.reverse ∧
      cs.reverse.takeWhile (· != '.') = ext.reverse := by
  have others : ∀ c ∈ ext.reverse, (c != '.') = true := by
    intro c hc
    have different : c ≠ '.' := fun same => pointless (same ▸ List.mem_reverse.1 hc)
    simpa using different
  have reversed : cs.reverse = ext.reverse ++ '.' :: stem.reverse := by simp [split]
  rw [reversed, List.dropWhile_append_of_pos others, List.takeWhile_append_of_pos others]
  simp

theorem fileExtension?_eq_some {name : String} {ext : List Char} :
    fileExtension? name = some ext ↔
      ∃ stem, name.toList = stem ++ '.' :: ext ∧ stem ≠ [] ∧ '.' ∉ ext := by
  constructor
  · intro h
    have parts := List.takeWhile_append_dropWhile (p := (· != '.')) (l := name.toList.reverse)
    have pointless : '.' ∉ name.toList.reverse.takeWhile (· != '.') := by
      intro here
      have each := List.all_eq_true.1 (List.all_takeWhile (p := (· != '.'))) _ here
      simp at each
    simp only [fileExtension?] at h
    split at h
    · cases h
    · cases h
    · rename_i rest notEmpty notSingle
      cases h
      cases found : name.toList.reverse.dropWhile (· != '.') with
      | nil => exact absurd found notEmpty
      | cons c before =>
        have point : c = '.' := by
          have := List.head?_dropWhile_not (· != '.') name.toList.reverse
          simpa [found] using this
        subst point
        refine ⟨before.reverse, ?_, ?_, by simpa using pointless⟩
        · rw [found] at parts
          have whole := congrArg List.reverse parts
          simpa using whole.symm
        · intro empty
          exact notSingle '.' (by rw [found, List.reverse_eq_nil_iff.1 empty])
  · rintro ⟨stem, split, notEmpty, pointless⟩
    obtain ⟨dropped, taken⟩ := split_at_last_point split pointless
    obtain ⟨c, before, rest⟩ := List.exists_cons_of_ne_nil (List.reverse_ne_nil_iff.2 notEmpty)
    simp only [fileExtension?, dropped, taken, rest, List.reverse_reverse]

theorem isPolicyName_eq_true {name : String} : isPolicyName name = true ↔ EndsInJson name := by
  have lowered : ∀ ext : List Char, (ext.map Char.toLower == ['j', 's', 'o', 'n']) = true ↔
      ext.map Char.toLower = ['j', 's', 'o', 'n'] := fun ext => beq_iff_eq
  constructor
  · intro h
    unfold isPolicyName at h
    split at h
    · obtain ⟨stem, split, notEmpty, -⟩ := fileExtension?_eq_some.1 ‹_›
      exact ⟨stem, _, split, notEmpty, (lowered _).1 h⟩
    · cases h
  · rintro ⟨stem, ext, split, notEmpty, json⟩
    have pointless : '.' ∉ ext := by
      intro here
      have : Char.toLower '.' ∈ ext.map Char.toLower := List.mem_map_of_mem here
      rw [json] at this
      exact absurd this (by decide)
    rw [isPolicyName, fileExtension?_eq_some.2 ⟨stem, split, notEmpty, pointless⟩]
    exact (lowered ext).2 json

/-- An entry is taken for a policy file if a look at it shows a file and its name is that of one. -/
theorem policyFile?_eq_some {entry : String × Except ReadFailure Node} {f : String × Node} :
    policyFile? entry = some f ↔
      entry = (f.1, .ok f.2) ∧ (∃ contents, f.2 = .file contents) ∧ EndsInJson f.1 := by
  constructor
  · intro taken
    unfold policyFile? at taken
    split at taken
    · split at taken
      · rename_i isPolicy
        cases taken
        exact ⟨rfl, ⟨_, rfl⟩, isPolicyName_eq_true.1 isPolicy⟩
      · cases taken
    · cases taken
    · cases taken
  · obtain ⟨name, node⟩ := f
    rintro ⟨rfl, ⟨contents, rfl⟩, json⟩
    rw [policyFile?, if_pos (isPolicyName_eq_true.2 json)]

structure Lists (entries files : List (String × Node)) : Prop where
  ascending : files.Pairwise fun a b => utf8Bytes a.1 < utf8Bytes b.1
  members : ∀ f, f ∈ files ↔ f ∈ entries ∧ (∃ contents, f.2 = .file contents) ∧ EndsInJson f.1

variable {entries files : List (String × Node)} {listing : Listing}

theorem Lists.filter (listing : Lists entries files) (p : String × Node → Bool) :
    Lists (entries.filter p) (files.filter p) := by
  constructor
  · exact listing.ascending.filter p
  · intro f
    rw [List.mem_filter, List.mem_filter, listing.members, and_right_comm]

theorem mem_policyFiles {f : String × Node} : f ∈ policyFiles listing ↔
    (f.1, .ok f.2) ∈ listing ∧ (∃ contents, f.2 = .file contents) ∧ EndsInJson f.1 := by
  rw [policyFiles, List.mem_mergeSort, List.mem_filterMap]
  simp only [policyFile?_eq_some]
  constructor
  · rintro ⟨entry, here, rfl, isPolicy⟩
    exact ⟨here, isPolicy⟩
  · rintro ⟨here, isPolicy⟩
    exact ⟨_, here, rfl, isPolicy⟩

theorem policyFiles_ascending (distinct : (listing.map (·.1)).Nodup) :
    (policyFiles listing).Pairwise NameMap.Below := by
  have transitive : ∀ a b c : String × Node, decide (a.1 ≤ b.1) = true →
      decide (b.1 ≤ c.1) = true → decide (a.1 ≤ c.1) = true := by
    intro a b c ab bc
    exact decide_eq_true (String.le_trans (of_decide_eq_true ab) (of_decide_eq_true bc))
  have total : ∀ a b : String × Node, (decide (a.1 ≤ b.1) || decide (b.1 ≤ a.1)) = true := by
    intro a b
    simpa using String.le_total a.1 b.1
  have sorted : (policyFiles listing).Pairwise fun a b => decide (a.1 ≤ b.1) = true :=
    List.pairwise_mergeSort transitive total (listing.filterMap policyFile?)
  have permuted : (policyFiles listing).Perm (listing.filterMap policyFile?) :=
    List.mergeSort_perm (listing.filterMap policyFile?) fun a b => decide (a.1 ≤ b.1)
  have different : (listing.filterMap policyFile?).Pairwise fun a b => a.1 ≠ b.1 := by
    refine List.pairwise_filterMap.2 ((List.pairwise_map.1 distinct).imp ?_)
    rintro entry other apart a ha b hb
    obtain ⟨rfl, -⟩ := policyFile?_eq_some.1 ha
    obtain ⟨rfl, -⟩ := policyFile?_eq_some.1 hb
    exact apart
  apply sorted.imp₂ ?_ (permuted.symm.pairwise different Ne.symm)
  intro a b le ne
  exact Std.lt_of_le_of_ne (of_decide_eq_true le) ne

theorem Lists.unique {others : List (String × Node)} (listing : Lists entries files)
    (listing' : Lists entries others) : files = others := by
  apply NameMap.eq_of_mem
  · exact listing.ascending.imp fun less => lt_iff_utf8Bytes_lt.2 less
  · exact listing'.ascending.imp fun less => lt_iff_utf8Bytes_lt.2 less
  · intro f
    rw [listing.members, listing'.members]

end Gatekeeper
