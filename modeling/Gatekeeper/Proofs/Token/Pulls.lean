import Gatekeeper.Proofs.Token.Fault
import Mathlib.Data.Nat.Find

/-!
# Pulls in a row

A cursor moves over whole characters and never back. A pull that gives a token takes it past at
least one of them; the first pull that gives none leaves it where every later one gives the same
again. What is pulled up to there is what a scan finds.
-/

set_option autoImplicit false

namespace Gatekeeper

def Pull.token? : Pull → Option Token
  | .token t => some t
  | _ => none

theorem Pull.token?_eq_some {p : Pull} {t : Token} : p.token? = some t ↔ p = .token t := by
  cases p <;> simp [token?]

theorem Pull.token?_eq_none {p : Pull} :
    p.token? = none ↔ p = .finished ∨ ∃ fault, p = .stuck fault := by
  cases p <;> simp [token?]

namespace Cursor

def afterPulls (c : Cursor) : Nat → Cursor
  | 0 => c
  | n + 1 => (c.afterPulls n).next.2

def pull (c : Cursor) (n : Nat) : Pull := (c.afterPulls n).next.1

def firstTokens (c : Cursor) : Nat → List Token
  | 0 => []
  | n + 1 => c.firstTokens n ++ (c.pull n).token?.toList

def Within (c : Cursor) (source : String) : Prop :=
  ∃ passed, source = passed ++ String.ofList c.rest ∧ c.offset = passed.utf8ByteSize

def Leads (c later : Cursor) : Prop :=
  ∃ passed, c.rest = passed ++ later.rest ∧ later.offset = c.offset + byteLength passed

variable {c later last : Cursor} {t : Token} {source : String} {m n : Nat}

/-! ## Moves -/

theorem Leads.refl (c : Cursor) : c.Leads c := ⟨[], rfl, rfl⟩

theorem Leads.trans (first : c.Leads later) (second : later.Leads last) : c.Leads last := by
  obtain ⟨passed, split, offset⟩ := first
  obtain ⟨more, split', offset'⟩ := second
  refine ⟨passed ++ more, ?_, ?_⟩
  · rw [split, split', List.append_assoc]
  · rw [offset', offset, byteLength_append, Nat.add_assoc]

theorem Leads.offset_le (leads : c.Leads later) : c.offset ≤ later.offset := by
  obtain ⟨passed, -, offset⟩ := leads
  omega

theorem Leads.within (leads : (start source).Leads c) : c.Within source := by
  obtain ⟨passed, split, offset⟩ := leads
  refine ⟨String.ofList passed, ?_, ?_⟩
  · apply String.toList_inj.1
    simpa [start] using split
  · rw [offset, byteLength_eq]
    exact Nat.zero_add _

theorem Within.offset_le (within : c.Within source) : c.offset ≤ source.utf8ByteSize := by
  obtain ⟨passed, rfl, offset⟩ := within
  rw [offset, String.utf8ByteSize_append]
  exact Nat.le_add_right _ _

theorem skipBlanks_leads (c : Cursor) : c.Leads c.skipBlanks :=
  ⟨_, List.takeWhile_append_dropWhile.symm, rfl⟩

/-! ## Single pulls -/

theorem Pulls.leads (pulls : Pulls c t later) : c.Leads later := by
  obtain ⟨-, -, ⟨before, -, place, split⟩, offset⟩ := pulls
  refine ⟨before ++ t.text.toList, split, ?_⟩
  rw [offset, place, byteLength_append, Nat.add_assoc]

/-- A token begins no earlier than where its pull did, and the pull ends behind it. -/
theorem Pulls.advance (pulls : Pulls c t later) : c.offset ≤ t.offset ∧
    t.offset < later.offset ∧ later.offset = t.offset + t.text.utf8ByteSize := by
  obtain ⟨spelling, -, ⟨before, -, place, -⟩, offset⟩ := pulls
  have long := spelling.byteLength_pos
  have bytes := byteLength_eq t.text.toList
  rw [String.ofList_toList] at bytes
  omega

theorem Pulls.sliceOf (leads : (start source).Leads c) (pulls : Pulls c t later) :
    t.SliceOf source := by
  obtain ⟨passed, split, offset⟩ := leads
  obtain ⟨-, -, ⟨before, -, place, split'⟩, -⟩ := pulls
  have whole : source.toList = passed ++ before ++ t.text.toList ++ later.rest := by
    show (start source).rest = _
    rw [split, split']
    simp
  refine .of_split whole ?_
  rw [place, offset, byteLength_append]
  exact congrArg (· + _) (Nat.zero_add _)

/-- A pull that gives no token rests behind the blanks, at the end of the text or at a fault. -/
theorem next_cases (c : Cursor) :
    (∃ t later, c.next = (.token t, later)) ∨
    (c.next = (.finished, c.skipBlanks) ∧ c.skipBlanks.rest = []) ∨
    ∃ fault, c.next = (.stuck fault, c.skipBlanks) ∧ c.skipBlanks.offset = fault.offset := by
  unfold next
  dsimp only
  split
  · exact .inr (.inl ⟨rfl, ‹_›⟩)
  · split
    · exact .inr (.inr ⟨_, rfl, rfl⟩)
    · exact .inl ⟨_, _, rfl⟩

theorem next_of_no_token (noToken : c.next.1.token? = none) : c.next.2 = c.skipBlanks := by
  rcases c.next_cases with ⟨t, later, pulled⟩ | ⟨finished, -⟩ | ⟨fault, stuck, -⟩
  · rw [pulled] at noToken
    cases noToken
  · rw [finished]
  · rw [stuck]

theorem next_finished_rest (finished : c.next.1 = .finished) : c.next.2.rest = [] := by
  rcases c.next_cases with ⟨t, later, pulled⟩ | ⟨here, rest⟩ | ⟨fault, stuck, -⟩
  · rw [pulled] at finished
    cases finished
  · rw [here]
    exact rest
  · rw [stuck] at finished
    cases finished

theorem next_stuck_offset {fault : LexicalFault} (stuck : c.next.1 = .stuck fault) :
    c.next.2.offset = fault.offset := by
  rcases c.next_cases with ⟨t, later, pulled⟩ | ⟨finished, -⟩ | ⟨fault', here, offset⟩
  · rw [pulled] at stuck
    cases stuck
  · rw [finished] at stuck
    cases stuck
  · rw [here] at stuck ⊢
    cases stuck
    exact offset

theorem next_eq_of_token? (found : c.next.1.token? = some t) : c.next = (.token t, c.next.2) :=
  Prod.ext (Pull.token?_eq_some.1 found) rfl

theorem next_leads (c : Cursor) : c.Leads c.next.2 := by
  cases found : c.next.1.token? with
  | none =>
    rw [next_of_no_token found]
    exact c.skipBlanks_leads
  | some t => exact (next_eq_token.1 (next_eq_of_token? found)).leads

theorem skipBlanks_skipBlanks (c : Cursor) : c.skipBlanks.skipBlanks = c.skipBlanks := by
  obtain ⟨-, -, stop⟩ := run_split isBlank c.rest
  have nothing : ∀ ch ∈ [], isBlank ch = true := nofun
  exact skipBlanks_append nothing stop

theorem next_stays (noToken : c.next.1.token? = none) : c.next.2.next = c.next := by
  rw [next_of_no_token noToken, next, skipBlanks_skipBlanks, ← next]

theorem scan_step (c : Cursor) :
    c.scan = ⟨c.next.1.token?.toList ++ c.next.2.scan.tokens, c.next.2.scan.fault⟩ := by
  cases found : c.next.1.token? with
  | some t => exact scan_token (next_eq_of_token? found)
  | none =>
    have stays := next_stays found
    rcases Pull.token?_eq_none.1 found with finished | ⟨fault, stuck⟩
    · have here : c.next = (.finished, c.next.2) := Prod.ext finished rfl
      rw [scan_finished here, scan_finished (stays.trans here)]
      rfl
    · have here : c.next = (.stuck fault, c.next.2) := Prod.ext stuck rfl
      rw [scan_stuck here, scan_stuck (stays.trans here)]
      rfl

/-! ## Runs of pulls -/

theorem afterPulls_leads (c : Cursor) (h : m ≤ n) : (c.afterPulls m).Leads (c.afterPulls n) := by
  induction n, h using Nat.le_induction with
  | base => exact .refl _
  | succ n _ ih => exact ih.trans (next_leads _)

/-- At most one token is pulled for every byte that the cursor passes. -/
theorem firstTokens_length (c : Cursor) (n : Nat) :
    c.offset + (c.firstTokens n).length ≤ (c.afterPulls n).offset := by
  induction n with
  | zero => exact Nat.le_refl _
  | succ n ih =>
    rw [firstTokens, List.length_append, afterPulls]
    cases found : (c.pull n).token? with
    | none =>
      have moved := (next_leads (c.afterPulls n)).offset_le
      simp only [Option.toList_none, List.length_nil]
      omega
    | some t =>
      have moved := (next_eq_token.1 (next_eq_of_token? found)).advance
      simp only [Option.toList_some, List.length_singleton]
      omega

theorem firstTokens_all (all : ∀ i < n, (c.pull i).token?.isSome) :
    (c.firstTokens n).length = n := by
  induction n with
  | zero => rfl
  | succ n ih =>
    obtain ⟨t, found⟩ := Option.isSome_iff_exists.1 (all n (Nat.lt_succ_self n))
    rw [firstTokens, List.length_append, ih fun i hi => all i (Nat.lt_succ_of_lt hi), found]
    rfl

theorem pull_stays (noToken : (c.pull m).token? = none) (h : m ≤ n) :
    (c.afterPulls n).next = (c.afterPulls m).next := by
  induction n, h using Nat.le_induction with
  | base => rfl
  | succ n _ ih =>
    have still : (c.pull n).token? = none := by rw [pull, ih]; exact noToken
    rw [afterPulls, next_stays still, ih]

theorem pull_finished (finished : c.pull m = .finished) (h : m ≤ n) : c.pull n = .finished := by
  have noToken : (c.pull m).token? = none := Pull.token?_eq_none.2 (.inl finished)
  rw [pull, pull_stays noToken h]
  exact finished

theorem pull_stuck {fault : LexicalFault} (stuck : c.pull m = .stuck fault) (h : m ≤ n) :
    c.pull n = .stuck fault := by
  have noToken : (c.pull m).token? = none := Pull.token?_eq_none.2 (.inr ⟨fault, stuck⟩)
  rw [pull, pull_stays noToken h]
  exact stuck

theorem start_leads (source : String) (n : Nat) :
    (start source).Leads ((start source).afterPulls n) :=
  (start source).afterPulls_leads (Nat.zero_le n)

theorem offset_of_finished (finished : (start source).pull n = .finished) :
    ((start source).afterPulls (n + 1)).offset = source.utf8ByteSize := by
  obtain ⟨passed, split, offset⟩ := (start_leads source (n + 1)).within
  have rest : ((start source).afterPulls (n + 1)).rest = [] := next_finished_rest finished
  rw [rest] at split
  rw [offset, split, String.ofList_nil, String.append_empty]

theorem scan_pulls (c : Cursor) (n : Nat) : c.scan =
    ⟨c.firstTokens n ++ (c.afterPulls n).scan.tokens, (c.afterPulls n).scan.fault⟩ := by
  induction n with
  | zero => rfl
  | succ n ih =>
    rw [ih, scan_step (c.afterPulls n), firstTokens, List.append_assoc]
    rfl

/-- One of as many pulls as there are bytes is the first that gives no token. -/
theorem exists_first_end (source : String) : ∃ n ≤ source.utf8ByteSize,
    (∀ i < n, ((start source).pull i).token?.isSome) ∧ ((start source).pull n).token? = none := by
  have ends : ∃ n ≤ source.utf8ByteSize, ((start source).pull n).token? = none := by
    by_contra endless
    have all : ∀ i < source.utf8ByteSize + 1, ((start source).pull i).token?.isSome :=
      fun i hi => Option.isSome_iff_ne_none.2 fun noToken =>
        endless ⟨i, Nat.lt_succ_iff.1 hi, noToken⟩
    have many := firstTokens_length (start source) (source.utf8ByteSize + 1)
    have inside := (start_leads source (source.utf8ByteSize + 1)).within.offset_le
    rw [firstTokens_all all] at many
    omega
  obtain ⟨n, early, noToken⟩ := ends
  have found : ∃ n, ((start source).pull n).token? = none := ⟨n, noToken⟩
  exact ⟨Nat.find found, (Nat.find_min' found noToken).trans early,
    fun i hi => Option.isSome_iff_ne_none.2 (Nat.find_min found hi), Nat.find_spec found⟩

end Cursor

open Cursor

variable {source : String} {n : Nat}

theorem tokenize_of_finished (finished : (start source).pull n = .finished) :
    tokenize source = .ok ((start source).firstTokens n) := by
  have here : ((start source).afterPulls n).next = (.finished, _) := Prod.ext finished rfl
  have whole : scan source = ⟨(start source).firstTokens n, none⟩ := by
    rw [scan, scan_pulls _ n, scan_finished here, List.append_nil]
  rw [tokenize, whole]

theorem tokenize_of_stuck {fault : LexicalFault} (stuck : (start source).pull n = .stuck fault) :
    tokenize source = .error (.lexical fault) := by
  have here : ((start source).afterPulls n).next = (.stuck fault, _) := Prod.ext stuck rfl
  have whole : scan source = ⟨(start source).firstTokens n, some fault⟩ := by
    rw [scan, scan_pulls _ n, scan_stuck here, List.append_nil]
  rw [tokenize, whole]

/-- However often a text is pulled from, the cursor stays on the bounds of its characters and never
goes back. A token that is pulled is a slice of the text and takes the cursor forward to its end, so
no more tokens are pulled than bytes are passed. One of the pulls is the first to give none. From
there on every pull gives the same: the end, with the cursor at the end of the text, or the fault,
with the cursor still at its offset. A scan finds the tokens that were pulled before, or that
fault. -/
theorem pulls_settle (source : String) :
    (∀ n, ((start source).afterPulls n).Within source ∧
      ((start source).afterPulls n).offset ≤ source.utf8ByteSize) ∧
    (∀ m n, m ≤ n →
      ((start source).afterPulls m).offset ≤ ((start source).afterPulls n).offset) ∧
    (∀ n t, (start source).pull n = .token t → t.SliceOf source ∧
      ((start source).afterPulls n).offset ≤ t.offset ∧
      t.offset < ((start source).afterPulls (n + 1)).offset ∧
      ((start source).afterPulls (n + 1)).offset = t.offset + t.text.utf8ByteSize) ∧
    (∀ n, ((start source).firstTokens n).length ≤ ((start source).afterPulls n).offset) ∧
    (∃ n ≤ source.utf8ByteSize, (∀ i < n, ∃ t, (start source).pull i = .token t) ∧
      ((start source).pull n = .finished ∨ ∃ fault, (start source).pull n = .stuck fault)) ∧
    (∀ n, (start source).pull n = .finished →
      tokenize source = .ok ((start source).firstTokens n) ∧
      ∀ m, n ≤ m → (start source).pull m = .finished ∧
        ((start source).afterPulls (m + 1)).offset = source.utf8ByteSize) ∧
    ∀ n fault, (start source).pull n = .stuck fault →
      tokenize source = .error (.lexical fault) ∧
      ∀ m, n ≤ m → (start source).pull m = .stuck fault ∧
        ((start source).afterPulls (m + 1)).offset = fault.offset := by
  have within := fun n => (start_leads source n).within
  refine ⟨fun n => ⟨within n, (within n).offset_le⟩,
    fun m n h => ((start source).afterPulls_leads h).offset_le, ?_, ?_, ?_, ?_, ?_⟩
  · intro n t pulled
    have here := next_eq_token.1 (next_eq_of_token? (Pull.token?_eq_some.2 pulled))
    exact ⟨here.sliceOf (start_leads source n), here.advance⟩
  · intro n
    have few := (start source).firstTokens_length n
    have begins : (start source).offset = 0 := rfl
    omega
  · obtain ⟨n, early, before, noToken⟩ := exists_first_end source
    refine ⟨n, early, fun i hi => ?_, Pull.token?_eq_none.1 noToken⟩
    obtain ⟨t, found⟩ := Option.isSome_iff_exists.1 (before i hi)
    exact ⟨t, Pull.token?_eq_some.1 found⟩
  · intro n finished
    refine ⟨tokenize_of_finished finished, fun m h => ?_⟩
    have still := pull_finished finished h
    exact ⟨still, offset_of_finished still⟩
  · intro n fault stuck
    refine ⟨tokenize_of_stuck stuck, fun m h => ?_⟩
    have still := pull_stuck stuck h
    exact ⟨still, next_stuck_offset still⟩

/-- A pull too many, and a blank of two bytes before a quote that is not closed. -/
example : (Cursor.start "a . b").pull 5 = .finished ∧
    (Cursor.start "a\u00A0 'b").pull 2 = .stuck ⟨'\'', 4⟩ := by decide

end Gatekeeper
