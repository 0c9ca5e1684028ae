import Gatekeeper.Disk
import Gatekeeper.Proofs.Outcome
import Gatekeeper.Proofs.PathPattern

/-!
# Finding files

What is found at the path of a folder's entry. If the folder is found and the path is not too long,
it is the entry; if it is too long nothing is found.
-/

set_option autoImplicit false

namespace Gatekeeper

/-- What systems allow as the name of an entry. -/
structure IsEntryName (name : String) : Prop where
  notEmpty : name ≠ ""
  notHere : name ≠ "."
  notAbove : name ≠ ".."
  slashless : '/' ∉ name.toList
  nullless : '\x00' ∉ name.toList
  short : name.utf8ByteSize ≤ longestName

namespace Location

variable {here last : Location}

theorem follow_append {xs ys : List String} : here.follow (xs ++ ys) = .ok last ↔
    ∃ between, here.follow xs = .ok between ∧ between.follow ys = .ok last := by
  rw [follow, List.foldlM_append, bind_eq_ok]
  rfl

theorem follow_one {name : String} : here.follow [name] = here.step name := by
  rw [follow, List.foldlM_cons]
  cases here.step name <;> rfl

theorem step_empty : here.step "" = .ok last ↔
    last = here ∧ ∃ entries, here.node = .folder entries := by
  unfold step
  cases here.node with
  | file contents => simp
  | folder entries =>
    show (if "" = "" ∨ "" = "." then Except.ok here else _) = _ ↔ _
    rw [if_pos (.inl rfl), Except.ok.injEq]
    constructor
    · rintro rfl
      exact ⟨rfl, entries, rfl⟩
    · rintro ⟨rfl, -⟩
      rfl

theorem step_entry {entries : List (String × Node)} {name : String} {node : Node}
    (folder : here.node = .folder entries) (isName : IsEntryName name)
    (entry : Node.entry? name entries = some node) :
    here.step name = .ok ⟨here.node :: here.above, node⟩ := by
  have notLong : ¬ longestName < name.utf8ByteSize := Nat.not_lt.2 isName.short
  rw [step, folder]
  simp [isName.notEmpty, isName.notHere, isName.notAbove, notLong, entry]

end Location

theorem entry?_eq_some {entries : List (String × Node)} {f : String × Node}
    (distinct : (entries.map (·.1)).Nodup) (here : f ∈ entries) :
    Node.entry? f.1 entries = some f.2 := by
  induction entries with
  | nil => simp at here
  | cons head rest ih =>
    obtain ⟨k, node⟩ := head
    rw [List.map_cons, List.nodup_cons] at distinct
    rcases List.mem_cons.1 here with rfl | later
    · rw [Node.entry?, if_pos rfl]
    · have other : k ≠ f.1 := by
        intro same
        exact distinct.1 (List.mem_map.2 ⟨f, later, same.symm⟩)
      rw [Node.entry?, if_neg other]
      exact ih distinct.2 later

namespace Disk

variable {d : Disk} {path folder name : String} {node : Node}

def namesOf (path : String) : List String := (splitAtSlashes path.toList).map String.ofList

theorem find_too_long (d : Disk) (long : longestPath < path.utf8ByteSize) :
    ∃ failure, d.find path = .error failure := by
  unfold find
  by_cases null : path.toList.contains '\x00' = true
  · exact ⟨.nullInName, by rw [if_pos null]⟩
  · exact ⟨.nameTooLong, by rw [if_neg null, if_pos long]⟩

theorem find_eq_ok : d.find path = .ok node ↔
    ('\x00' ∉ path.toList ∧ path.utf8ByteSize ≤ longestPath ∧ path ≠ "") ∧
      ∃ first last, d.start path = .ok first ∧ first.follow (namesOf path) = .ok last ∧
        last.node = node := by
  unfold find
  by_cases null : '\x00' ∈ path.toList
  · simp [null]
  by_cases long : longestPath < path.utf8ByteSize
  · simp [null, long, Nat.not_le.2 long]
  by_cases empty : path = ""
  · simp [empty]
  · simp only [List.contains_iff_mem, null, long, empty, if_false, bind_eq_ok, pure_eq_ok, namesOf]
    simp [empty, Nat.le_of_not_lt long]

theorem start_pathIn (nonempty : folder ≠ "") : d.start (pathIn folder name) = d.start folder := by
  have first : (pathIn folder name).toList.head? = folder.toList.head? := by
    have cons : folder.toList ≠ [] := by simpa using nonempty
    obtain ⟨c, cs, split⟩ := List.exists_cons_of_ne_nil cons
    unfold pathIn
    split_ifs <;> simp [split]
  rw [start, start, first]

/-- The names on the path of an entry are those on the path of its folder, where this may end in a
slash, and its own. -/
theorem namesOf_pathIn (nonempty : folder ≠ "") (slashless : '/' ∉ name.toList) :
    ∃ names, namesOf (pathIn folder name) = names ++ [name] ∧
      (namesOf folder = names ∨ namesOf folder = names ++ [""]) := by
  have own : (splitAtSlashes name.toList).map String.ofList = [name] := by
    rw [splitAtSlashes_slashless slashless]
    simp
  by_cases slash : folder.toList.getLast? = some '/'
  · obtain ⟨cs, split⟩ := List.getLast?_eq_some_iff.1 slash
    have joined : (pathIn folder name).toList = cs ++ '/' :: name.toList := by
      rw [pathIn, if_pos (.inr slash)]
      simp [split]
    refine ⟨(splitAtSlashes cs).map String.ofList, ?_, .inr ?_⟩
    · rw [namesOf, joined, splitAtSlashes_append, List.map_append, own]
    · rw [namesOf, split, splitAtSlashes_append, List.map_append]
      rfl
  · have joined : (pathIn folder name).toList = folder.toList ++ '/' :: name.toList := by
      rw [pathIn, if_neg (by simp [nonempty, slash])]
      simp
    refine ⟨namesOf folder, ?_, .inl rfl⟩
    rw [namesOf, joined, splitAtSlashes_append, List.map_append, own]
    rfl

theorem find_entry {entries : List (String × Node)}
    (found : d.find folder = .ok (.folder entries)) (isName : IsEntryName name)
    (entry : Node.entry? name entries = some node)
    (near : (pathIn folder name).utf8ByteSize ≤ longestPath) :
    d.find (pathIn folder name) = .ok node := by
  obtain ⟨⟨nullless, -, nonempty⟩, first, last, start, follow, isFolder⟩ := find_eq_ok.1 found
  obtain ⟨names, whole, part⟩ := namesOf_pathIn nonempty isName.slashless
  have reached : first.follow names = .ok last := by
    rcases part with same | ended
    · rw [← same]
      exact follow
    · rw [ended, Location.follow_append] at follow
      obtain ⟨between, before, after⟩ := follow
      rw [Location.follow_one, Location.step_empty] at after
      rw [after.1]
      exact before
  have nullless' : '\x00' ∉ (pathIn folder name).toList := by
    unfold pathIn
    split_ifs <;> simp [nullless, isName.nullless]
  have nonempty' : pathIn folder name ≠ "" := by
    unfold pathIn
    split_ifs <;> simp [isName.notEmpty]
  have start' : d.start (pathIn folder name) = .ok first := by rw [start_pathIn nonempty, start]
  have follow' : first.follow (namesOf (pathIn folder name)) =
      .ok ⟨last.node :: last.above, node⟩ := by
    have step := Location.step_entry isFolder isName entry
    rw [← Location.follow_one] at step
    rw [whole, Location.follow_append]
    exact ⟨last, reached, step⟩
  exact find_eq_ok.2 ⟨⟨nullless', near, nonempty'⟩, first, _, start', follow', rfl⟩

end Disk

end Gatekeeper
