import Gatekeeper.Load
import Gatekeeper.Proofs.Registry

/-!
# The stages of a load

Reading, compiling and merging as runs over one list each. The chunks in which the threads compile
are consecutive parts of the list of sources, so that putting their results together is the same as
compiling the list, error included.
-/

set_option autoImplicit false

namespace Gatekeeper

variable {α β : Type}

theorem reportIn_eq_ok {origin : String} {x : Except Error α} {a : α} :
    reportIn origin x = .ok a ↔ x = .ok a := by
  cases x <;> simp [reportIn, Except.mapError]

theorem reportIn_eq_error {origin : String} {x : Except Error α} {e : Error} :
    reportIn origin x = .error e ↔ ∃ cause, x = .error cause ∧ e = .inDocument origin cause := by
  cases x <;> simp [reportIn, Except.mapError, eq_comm]

def ReadsAs (file : String × Except ReadFailure Node) (s : PolicySource) : Prop :=
  s.origin = file.1 ∧
    ∃ text, file.2.bind Node.text = .ok text ∧ Document.read text = .ok s.document

def FailsToRead (file : String × Except ReadFailure Node) (cause : Error) : Prop :=
  (cause = .unreadable ∧ ∃ failure, file.2.bind Node.text = .error failure) ∨
    ∃ text, file.2.bind Node.text = .ok text ∧ Document.read text = .error cause

theorem readSource_eq_ok {file : String × Except ReadFailure Node} {s : PolicySource} :
    readSource file.1 file.2 = .ok s ↔ ReadsAs file s := by
  obtain ⟨origin, document⟩ := s
  rw [readSource, reportIn_eq_ok]
  cases text : file.2.bind Node.text with
  | error failure => simp [ReadsAs, text]
  | ok text' =>
    cases read : Document.read text' with
    | error cause => simp [ReadsAs, text, read, Except.map]
    | ok found => simp [ReadsAs, text, read, Except.map, eq_comm]

theorem readSource_eq_error {file : String × Except ReadFailure Node} {e : Error} :
    readSource file.1 file.2 = .error e ↔
      ∃ cause, FailsToRead file cause ∧ e = .inDocument file.1 cause := by
  rw [readSource, reportIn_eq_error]
  cases text : file.2.bind Node.text with
  | error failure => simp [FailsToRead, text, eq_comm]
  | ok text' =>
    cases read : Document.read text' with
    | error cause => simp [FailsToRead, text, read, Except.map, eq_comm]
    | ok found => simp [FailsToRead, text, read, Except.map]

theorem readSources_eq_mapM (files : List (String × Except ReadFailure Node)) :
    readSources files = files.mapM fun f => readSource f.1 f.2 := by
  induction files with
  | nil => rfl
  | cons f files ih => rw [readSources, List.mapM_cons, ih]

theorem compileEach_eq_mapM (b : Builtins) (sources : List PolicySource) :
    compileEach b sources = sources.mapM (PolicySource.compile b) := by
  induction sources with
  | nil => rfl
  | cons s sources ih => rw [compileEach, List.mapM_cons, ih]

theorem chunksOf_flatten (size : Nat) (xs : List α) : (chunksOf size xs).flatten = xs := by
  induction xs using chunksOf.induct size with
  | case1 => rw [chunksOf, List.flatten_nil]
  | case2 x rest ih =>
    rw [chunksOf, List.flatten_cons, ih, List.cons_append, List.take_append_drop]

/-- Parts that are run over side by side give what the whole gives. -/
theorem gather_map (f : α → Except Error β) (chunks : List (List α)) :
    gather (chunks.map (List.mapM f)) = chunks.flatten.mapM f := by
  induction chunks with
  | nil => rfl
  | cons chunk chunks ih => rw [List.map_cons, gather, ih, List.flatten_cons, List.mapM_append]

theorem compileAll_eq_mapM (b : Builtins) (threads : Nat) (sources : List PolicySource) :
    compileAll b threads sources = sources.mapM (PolicySource.compile b) := by
  have each : compileEach b = List.mapM (PolicySource.compile b) :=
    funext (compileEach_eq_mapM b)
  rw [compileAll, each, gather_map, chunksOf_flatten]

variable {r r' : Registry} {allow : Bool} {pairs : List (PolicySource × Workflow)} {e : Error}

theorem merge_eq_ok :
    merge allow r pairs = .ok r' ↔ r.insertAll allow (pairs.map (·.2)) = .ok r' := by
  induction pairs generalizing r with
  | nil => rfl
  | cons pair pairs ih =>
    obtain ⟨s, w⟩ := pair
    simp only [merge, bind_eq_ok, reportIn_eq_ok, ih, List.map_cons, Registry.insertAll]

/-- A merge ends at the first workflow that is refused by what those before it have made. -/
theorem merge_eq_error : merge allow r pairs = .error e ↔
    ∃ before s w after r₁ cause, pairs = before ++ (s, w) :: after ∧
      r.insertAll allow (before.map (·.2)) = .ok r₁ ∧ r₁.insert w allow = .error cause ∧
        e = .inDocument s.origin cause := by
  induction pairs generalizing r with
  | nil => simp [merge]
  | cons pair pairs ih =>
    obtain ⟨s, w⟩ := pair
    simp only [merge, bind_eq_error, reportIn_eq_error, reportIn_eq_ok, ih]
    constructor
    · intro h
      rcases h with ⟨cause, refused, rfl⟩ | ⟨r₁, first, before, s', w', after, r₂, later⟩
      · exact ⟨[], s, w, pairs, r, cause, rfl, rfl, refused, rfl⟩
      · obtain ⟨cause, rfl, run, refused, rfl⟩ := later
        have whole := Registry.insertAll_cons.2 ⟨r₁, first, run⟩
        exact ⟨(s, w) :: before, s', w', after, r₂, cause, rfl, whole, refused, rfl⟩
    · rintro ⟨before, s', w', after, r₂, cause, split, run, refused, rfl⟩
      cases before with
      | nil =>
        obtain ⟨same, -⟩ := List.cons.inj split
        cases same
        cases run
        exact .inl ⟨cause, refused, rfl⟩
      | cons pair before =>
        obtain ⟨same, rfl⟩ := List.cons.inj split
        cases same
        obtain ⟨r₁, first, rest⟩ := Registry.insertAll_cons.1 run
        exact .inr ⟨r₁, first, before, s', w', after, r₂, cause, rfl, rest, refused, rfl⟩

end Gatekeeper
