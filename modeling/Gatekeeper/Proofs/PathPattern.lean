import Gatekeeper.PathPattern

/-!
# Segments of paths

How texts are cut at slashes: there is always a part, a slash ends one and begins another, and
nothing but slashes is left out. One slash at either end of a path makes no difference. A pattern
covers the paths whose segments are its own up to its first star, or all of its own if it has none.
-/

set_option autoImplicit false

namespace Gatekeeper

theorem splitAtSlashes_ne_nil (cs : List Char) : splitAtSlashes cs ≠ [] := by
  cases cs with
  | nil => simp [splitAtSlashes]
  | cons c cs =>
    unfold splitAtSlashes
    by_cases slash : c = '/'
    · simp [slash]
    · rw [if_neg slash]
      split <;> simp

theorem splitAtSlashes_slash (cs : List Char) :
    splitAtSlashes ('/' :: cs) = [] :: splitAtSlashes cs := by
  rw [splitAtSlashes, if_pos rfl]

theorem splitAtSlashes_other {c : Char} {cs part : List Char} {parts : List (List Char)}
    (other : c ≠ '/') (rest : splitAtSlashes cs = part :: parts) :
    splitAtSlashes (c :: cs) = (c :: part) :: parts := by
  rw [splitAtSlashes, if_neg other, rest]

theorem splitAtSlashes_slashless {cs : List Char} (slashless : '/' ∉ cs) :
    splitAtSlashes cs = [cs] := by
  induction cs with
  | nil => rfl
  | cons c cs ih =>
    have other : c ≠ '/' := fun same => slashless (by simp [same])
    have rest : '/' ∉ cs := fun here => slashless (by simp [here])
    exact splitAtSlashes_other other (ih rest)

theorem splitAtSlashes_append (xs ys : List Char) :
    splitAtSlashes (xs ++ '/' :: ys) = splitAtSlashes xs ++ splitAtSlashes ys := by
  induction xs with
  | nil => exact splitAtSlashes_slash ys
  | cons c xs ih =>
    by_cases slash : c = '/'
    · rw [slash, List.cons_append, splitAtSlashes_slash, splitAtSlashes_slash, ih,
        List.cons_append]
    · obtain ⟨part, parts, split⟩ := List.exists_cons_of_ne_nil (splitAtSlashes_ne_nil xs)
      rw [split, List.cons_append] at ih
      rw [List.cons_append, splitAtSlashes_other slash ih, splitAtSlashes_other slash split,
        List.cons_append]

theorem splitAtSlashes_eq (cs : List Char) : splitAtSlashes cs = cs.splitOn '/' := by
  rw [List.splitOn]
  induction cs with
  | nil => rfl
  | cons c cs ih =>
    rw [List.splitOnP_cons_eq_if_modifyHead, ← ih]
    by_cases slash : c = '/'
    · rw [slash, splitAtSlashes_slash, if_pos (by simp)]
    · obtain ⟨part, parts, split⟩ := List.exists_cons_of_ne_nil (splitAtSlashes_ne_nil cs)
      rw [splitAtSlashes_other slash split, split, if_neg (by simpa using slash),
        List.modifyHead_cons]

/-! ## Slashes at the ends -/

/-- What is left of a path if at most one slash is taken off at the beginning, and then at most one
at the end. -/
def Bare (path core : List Char) : Prop :=
  ∃ opening closing, path = opening ++ core ++ closing ∧
    (opening = ['/'] ∨ opening = [] ∧ path.head? ≠ some '/') ∧
    (closing = ['/'] ∨ closing = [] ∧ core.getLast? ≠ some '/')

variable {cs core : List Char}

theorem withoutFirstSlash_other (other : cs.head? ≠ some '/') : withoutFirstSlash cs = cs := by
  unfold withoutFirstSlash
  split
  · exact absurd rfl other
  · rfl

theorem withoutLastSlash_slash (cs : List Char) : withoutLastSlash (cs ++ ['/']) = cs := by
  simp [withoutLastSlash, withoutFirstSlash]

theorem withoutLastSlash_other (other : cs.getLast? ≠ some '/') : withoutLastSlash cs = cs := by
  rw [withoutLastSlash, withoutFirstSlash_other (by simpa using other), List.reverse_reverse]

theorem Bare.core_eq (bare : Bare cs core) : withoutLastSlash (withoutFirstSlash cs) = core := by
  obtain ⟨opening, closing, split, first, last⟩ := bare
  have opened : withoutFirstSlash cs = core ++ closing := by
    rcases first with rfl | ⟨rfl, other⟩
    · rw [split]
      rfl
    · rw [withoutFirstSlash_other other, split, List.nil_append]
  rw [opened]
  rcases last with rfl | ⟨rfl, other⟩
  · exact withoutLastSlash_slash core
  · rw [List.append_nil, withoutLastSlash_other other]

theorem exists_bare (cs : List Char) : ∃ core, Bare cs core := by
  obtain ⟨opening, rest, split, first⟩ : ∃ opening rest, cs = opening ++ rest ∧
      (opening = ['/'] ∨ opening = [] ∧ cs.head? ≠ some '/') := by
    by_cases slash : cs.head? = some '/'
    · obtain ⟨rest, rfl⟩ := List.head?_eq_some_iff.1 slash
      exact ⟨['/'], rest, rfl, .inl rfl⟩
    · exact ⟨[], cs, rfl, .inr ⟨rfl, slash⟩⟩
  by_cases slash : rest.getLast? = some '/'
  · obtain ⟨core, rfl⟩ := List.getLast?_eq_some_iff.1 slash
    exact ⟨core, opening, ['/'], by rw [split, List.append_assoc], first, .inl rfl⟩
  · exact ⟨rest, opening, [], by rw [split, List.append_nil], first, .inr ⟨rfl, slash⟩⟩

theorem Bare.slash_first (other : cs.head? ≠ some '/') (bare : Bare cs core) :
    Bare ('/' :: cs) core := by
  obtain ⟨opening, closing, split, first, last⟩ := bare
  rcases first with rfl | ⟨rfl, -⟩
  · rw [split] at other
    exact absurd rfl other
  · exact ⟨['/'], closing, by rw [split]; rfl, .inl rfl, last⟩

theorem Bare.slash_last (other : cs.getLast? ≠ some '/') (bare : Bare cs core) :
    Bare (cs ++ ['/']) core := by
  obtain ⟨opening, closing, split, first, last⟩ := bare
  rcases last with rfl | ⟨rfl, last⟩
  · exact absurd (by simp [split]) other
  rw [List.append_nil] at split
  rcases first with rfl | ⟨rfl, first⟩
  · exact ⟨['/'], ['/'], by rw [split], .inl rfl, .inl rfl⟩
  · -- A slash behind nothing is the first.
    cases cs with
    | nil => exact ⟨['/'], [], by simpa using split, .inl rfl, .inr ⟨rfl, last⟩⟩
    | cons c cs => exact ⟨[], ['/'], by rw [split], .inr ⟨rfl, first⟩, .inl rfl⟩

theorem pathSegments_eq {path : String} (bare : Bare path.toList core) :
    pathSegments path = (core.splitOn '/').map fun part => String.ofList (trimBlanks part) := by
  rw [pathSegments, bare.core_eq, splitAtSlashes_eq]

theorem pathSegments_congr {path path' : String}
    (same : ∀ core, Bare path.toList core → Bare path'.toList core) :
    pathSegments path' = pathSegments path := by
  obtain ⟨core, bare⟩ := exists_bare path.toList
  rw [pathSegments_eq bare, pathSegments_eq (same core bare)]

theorem pathSegments_slash_first {path : String} (other : path.toList.head? ≠ some '/') :
    pathSegments ("/" ++ path) = pathSegments path :=
  pathSegments_congr fun core bare => by
    rw [String.toList_append]
    exact bare.slash_first other

theorem pathSegments_slash_last {path : String} (other : path.toList.getLast? ≠ some '/') :
    pathSegments (path ++ "/") = pathSegments path :=
  pathSegments_congr fun core bare => by
    rw [String.toList_append]
    exact bare.slash_last other

/-- Parts without slashes, joined by slashes, are the segments again. -/
theorem pathSegments_joined {parts : List String} (nonempty : parts ≠ [])
    (slashless : ∀ part ∈ parts, '/' ∉ part.toList) :
    pathSegments ("/" ++ "/".intercalate parts ++ "/") =
      parts.map fun part => String.ofList (trimBlanks part.toList) := by
  have bare : Bare ("/" ++ "/".intercalate parts ++ "/").toList
      (List.intercalate ['/'] (parts.map String.toList)) :=
    ⟨['/'], ['/'], by simp, .inl rfl, .inl rfl⟩
  rw [pathSegments_eq bare, List.splitOn_intercalate '/' (by simpa using slashless)
    (by simpa using nonempty), List.map_map]
  rfl

namespace PathPattern

/-! ## Patterns -/

variable {pattern path : List String}

theorem matchSegments_starred (star : wildcard ∈ pattern) :
    matchSegments pattern path = true ↔ pattern.idxOf wildcard ≤ path.length ∧
      path.take (pattern.idxOf wildcard) = pattern.take (pattern.idxOf wildcard) := by
  induction pattern generalizing path with
  | nil => cases star
  | cons s pattern ih =>
    rw [matchSegments.eq_def]
    by_cases here : s = wildcard
    · simp [here]
    · have later : wildcard ∈ pattern := List.mem_of_ne_of_mem (Ne.symm here) star
      have place : (s :: pattern).idxOf wildcard = pattern.idxOf wildcard + 1 := by
        rw [List.idxOf_cons, beq_eq_false_iff_ne.2 here]
        rfl
      dsimp only
      rw [if_neg here, place]
      cases path with
      | nil => simp
      | cons t path => simp [ih later, and_left_comm]

theorem matchSegments_starless (starless : wildcard ∉ pattern) :
    matchSegments pattern path = true ↔ path = pattern := by
  induction pattern generalizing path with
  | nil => simp [matchSegments]
  | cons s pattern ih =>
    obtain ⟨here, later⟩ := List.ne_and_not_mem_of_not_mem_cons starless
    rw [matchSegments.eq_def]
    dsimp only
    rw [if_neg (Ne.symm here)]
    cases path with
    | nil => simp
    | cons t path => simp [ih later]

/-- The segments of a path are the parts between the slashes of what is left of it, blanks cut off;
parts that are joined and put between slashes come back. A pattern with a star covers the paths that
begin with its segments before the first one, and a pattern without a star the paths with just its
segments. A slash more makes no difference where there is none yet. -/
theorem covers_exact :
    (∀ path : String, (∃ core, Bare path.toList core) ∧ ∀ core, Bare path.toList core →
      pathSegments path = (core.splitOn '/').map fun part => String.ofList (trimBlanks part)) ∧
    (∀ parts : List String, parts ≠ [] → (∀ part ∈ parts, '/' ∉ part.toList) →
      pathSegments ("/" ++ "/".intercalate parts ++ "/") =
        parts.map fun part => String.ofList (trimBlanks part.toList)) ∧
    (∀ (p : PathPattern) (path : String),
      (wildcard ∈ p.segments → (p.covers path = true ↔
        p.segments.idxOf wildcard ≤ (pathSegments path).length ∧
          (pathSegments path).take (p.segments.idxOf wildcard) =
            p.segments.take (p.segments.idxOf wildcard))) ∧
      (wildcard ∉ p.segments → (p.covers path = true ↔ pathSegments path = p.segments))) ∧
    ∀ pattern path : String,
      (pattern.toList.head? ≠ some '/' →
        covers ⟨"/" ++ pattern⟩ path = covers ⟨pattern⟩ path) ∧
      (pattern.toList.getLast? ≠ some '/' →
        covers ⟨pattern ++ "/"⟩ path = covers ⟨pattern⟩ path) ∧
      (path.toList.head? ≠ some '/' →
        covers ⟨pattern⟩ ("/" ++ path) = covers ⟨pattern⟩ path) ∧
      (path.toList.getLast? ≠ some '/' →
        covers ⟨pattern⟩ (path ++ "/") = covers ⟨pattern⟩ path) := by
  refine ⟨fun path => ?_, fun parts => pathSegments_joined, fun p path => ⟨?_, ?_⟩,
    fun pattern path => ⟨?_, ?_, ?_, ?_⟩⟩
  · exact ⟨exists_bare path.toList, fun core => pathSegments_eq⟩
  · exact matchSegments_starred
  · exact matchSegments_starless
  · intro other
    simp only [covers, segments, pathSegments_slash_first other]
  · intro other
    simp only [covers, segments, pathSegments_slash_last other]
  · intro other
    rw [covers, covers, pathSegments_slash_first other]
  · intro other
    rw [covers, covers, pathSegments_slash_last other]

/-- What stands behind a star does not count, and a path may end where the star is. -/
theorem covers_exact_area :
    covers ⟨"area/ */never"⟩ "/area/" = true ∧ covers ⟨"area/ */never"⟩ "/areas/a/b" = false ∧
      covers ⟨"area/lobby"⟩ "area" = false ∧
      ∀ path, covers ⟨"/area/lobby/"⟩ path = covers ⟨"area/lobby"⟩ path := by
  obtain ⟨-, -, covered, slashes⟩ := covers_exact
  have star : wildcard ∈ segments ⟨"area/ */never"⟩ := by decide +kernel
  refine ⟨((covered _ "/area/").1 star).2 (by decide +kernel), ?_, ?_, fun path => ?_⟩
  · rw [Bool.eq_false_iff, ne_eq, (covered _ _).1 star]
    decide +kernel
  · rw [Bool.eq_false_iff, ne_eq, (covered _ _).2 (by decide +kernel)]
    decide +kernel
  · have first := (slashes "area/lobby/" path).1 (by decide)
    have last := (slashes "area/lobby" path).2.1 (by decide)
    exact first.trans last

end PathPattern

end Gatekeeper
