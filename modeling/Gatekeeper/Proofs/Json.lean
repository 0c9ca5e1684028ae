import Gatekeeper.Json.Read
import Gatekeeper.Json.Write
import Gatekeeper.Proofs.Token.Layout
import Mathlib.Data.List.Forall2

/-!
# Written JSON is read

What the writer makes of a tree is read as that tree, at any depth and before any text that cannot
go on with it. The reader is followed along the text: every lexeme that the writer has put there is
cut off whole and takes the reader one state further.
-/

set_option autoImplicit false

namespace Gatekeeper.Json

/-! ## Strings -/

inductive Piece.Writes : Piece → Char → Prop
  | char (c : Char) : Writes (.char c) c
  | unit {c : Char} (control : c.toNat < 0x20) : Writes (.unit c.toNat) c

theorem joinPieces?_writes {ps : List Piece} {cs : List Char}
    (writes : List.Forall₂ Piece.Writes ps cs) : joinPieces? ps = some cs := by
  induction writes with
  | nil => rfl
  | @cons p c ps cs here rest ih =>
    cases here with
    | char => rw [joinPieces?, ih, Option.map_some]
    | unit control =>
      have noHigh : isHighSurrogate c.toNat = false := by
        simp only [isHighSurrogate, Bool.and_eq_false_imp, decide_eq_true_eq]
        omega
      have noLow : isLowSurrogate c.toNat = false := by
        simp only [isLowSurrogate, Bool.and_eq_false_imp, decide_eq_true_eq]
        omega
      rw [joinPieces?.eq_def]
      simp only [noHigh, noLow, ih, Bool.false_eq_true, if_false, Option.map_some,
        Char.ofNat_toNat]

def afterPiece (p : Piece) (rest : List Char) : Option (List Piece × List Char) :=
  (pieces? rest).map fun read => (p :: read.1, read.2)

theorem pieces?_escape {e c : Char} (escape : simpleEscape? e = some c) (rest : List Char) :
    pieces? ('\\' :: e :: rest) = afterPiece (.char c) rest := by
  have noUnit : e ≠ 'u' := by
    rintro rfl
    cases escape
  rw [pieces?.eq_4 e rest fun _ _ _ _ _ isUnit _ => noUnit isUnit, escape, afterPiece]
  cases pieces? rest <;> rfl

theorem pieces?_unit {n : Nat} {a b c d : Char} (unit : hexUnit? [a, b, c, d] = some n)
    (rest : List Char) :
    pieces? ('\\' :: 'u' :: a :: b :: c :: d :: rest) = afterPiece (.unit n) rest := by
  rw [pieces?, unit, afterPiece]
  cases pieces? rest <;> rfl

theorem pieces?_plain {c : Char} (noQuote : c ≠ '"') (noEscape : c ≠ '\\')
    (noControl : ¬ c.toNat < 0x20) (rest : List Char) :
    pieces? (c :: rest) = afterPiece (.char c) rest := by
  rw [pieces?.eq_5 c rest noQuote (fun _ _ _ _ _ isEscape _ => noEscape isEscape)
    fun _ _ isEscape _ => noEscape isEscape, if_neg (not_or.2 ⟨noControl, noEscape⟩), afterPiece]
  cases pieces? rest <;> rfl

theorem hexUnit?_control : ∀ n < 0x20,
    hexUnit? ['0', '0', hexDigit (n / 16), hexDigit (n % 16)] = some n := by
  decide

/-- What is written for a character is read as one piece that writes it. -/
theorem pieces?_escapedChar (c : Char) (rest : List Char) :
    ∃ p : Piece, p.Writes c ∧ pieces? (escapedChar c ++ rest) = afterPiece p rest := by
  unfold escapedChar
  split_ifs with quote escape backspace feed newline ret tab control
  · subst quote
    exact ⟨_, .char _, pieces?_escape rfl rest⟩
  · subst escape
    exact ⟨_, .char _, pieces?_escape rfl rest⟩
  · subst backspace
    exact ⟨_, .char _, pieces?_escape rfl rest⟩
  · subst feed
    exact ⟨_, .char _, pieces?_escape rfl rest⟩
  · subst newline
    exact ⟨_, .char _, pieces?_escape rfl rest⟩
  · subst ret
    exact ⟨_, .char _, pieces?_escape rfl rest⟩
  · subst tab
    exact ⟨_, .char _, pieces?_escape rfl rest⟩
  · exact ⟨_, .unit control, pieces?_unit (hexUnit?_control _ control) rest⟩
  · exact ⟨_, .char c, pieces?_plain quote escape control rest⟩

theorem pieces?_escaped (cs rest : List Char) : ∃ ps, List.Forall₂ Piece.Writes ps cs ∧
    pieces? (cs.flatMap escapedChar ++ '"' :: rest) = some (ps, rest) := by
  induction cs with
  | nil => exact ⟨[], .nil, rfl⟩
  | cons c cs ih =>
    obtain ⟨ps, writes, read⟩ := ih
    obtain ⟨p, here, first⟩ := pieces?_escapedChar c (cs.flatMap escapedChar ++ '"' :: rest)
    refine ⟨p :: ps, .cons here writes, ?_⟩
    rw [List.flatMap_cons, List.append_assoc, first, afterPiece, read]
    rfl

theorem lexeme?_stringChars (s : String) (rest : List Char) :
    lexeme? (stringChars s ++ rest) = some (.string (some s), rest) := by
  obtain ⟨ps, writes, read⟩ := pieces?_escaped s.toList rest
  show lexeme? ('"' :: (s.toList.flatMap escapedChar ++ ['"'] ++ rest)) = _
  rw [List.append_assoc, List.singleton_append]
  show (pieces? (s.toList.flatMap escapedChar ++ '"' :: rest)).map _ = _
  simp only [read, Option.map_some, joinPieces?_writes writes, String.ofList_toList]

/-! ## Numbers -/

def EndsNumber (rest : List Char) : Prop :=
  ∀ c ∈ rest.head?, c.isDigit = false ∧ c ≠ '.' ∧ c ≠ 'e' ∧ c ≠ 'E'

def GoesThrough (part : List Char → Option (List Char × List Char)) : Prop :=
  ∀ {cs ds after rest : List Char}, part cs = some (ds, after) → EndsNumber rest →
    part (cs ++ rest) = some (ds, after ++ rest)

theorem digits?_goesThrough : GoesThrough digits? := by
  intro cs ds after rest read ends
  obtain ⟨split, all, stop⟩ := run_split Char.isDigit cs
  have stop' : ∀ c ∈ (cs.dropWhile Char.isDigit ++ rest).head?, c.isDigit = false := by
    cases h : cs.dropWhile Char.isDigit with
    | nil => exact fun c hc => (ends c hc).1
    | cons d more =>
      rw [h] at stop
      exact stop
  obtain ⟨taken, dropped⟩ := run_append all stop'
  rw [← List.append_assoc, ← split] at taken dropped
  simp only [digits?] at read ⊢
  rw [taken, dropped]
  split_ifs at read ⊢
  cases read
  rfl

theorem fraction?_goesThrough : GoesThrough fraction? := by
  intro cs ds after rest read ends
  unfold fraction? at read
  split at read
  · obtain ⟨p, digits, same⟩ := Option.map_eq_some_iff.1 read
    cases same
    rw [List.cons_append, fraction?, digits?_goesThrough digits ends, Option.map_some]
  · rename_i noPoint
    cases read
    apply fraction?.eq_2
    intro digits point
    cases cs with
    | nil => exact (ends '.' (by simpa using congrArg List.head? point)).2.1 rfl
    | cons c cs => exact noPoint cs (by rw [(List.cons.inj point).1])

theorem exponent?_goesThrough : GoesThrough exponent? := by
  intro cs ds after rest read ends
  cases cs with
  | nil =>
    cases read
    cases rest with
    | nil => rfl
    | cons c rest =>
      obtain ⟨-, -, noLower, noUpper⟩ := ends c rfl
      simp [exponent?, noLower, noUpper]
  | cons c cs =>
    simp only [exponent?, List.cons_append] at read ⊢
    split_ifs at read ⊢ with mark
    · cases cs with
      | nil => cases read
      | cons sign more =>
        simp only [List.cons_append] at read ⊢
        split_ifs at read ⊢ with signed
        all_goals
          obtain ⟨p, digits, same⟩ := Option.map_eq_some_iff.1 read
          cases same
        · rw [digits?_goesThrough digits ends, Option.map_some]
        · rw [← List.cons_append, digits?_goesThrough digits ends, Option.map_some]
    · cases read
      rfl

theorem whole?_goesThrough : GoesThrough whole? := by
  intro cs ds after rest read ends
  unfold whole? at read
  split at read
  · cases read
    rfl
  · rename_i noZero
    cases cs with
    | nil => cases read
    | cons c cs =>
      have noZero' : ∀ more, c :: cs ++ rest = '0' :: more → False :=
        fun _ same => noZero cs (by rw [(List.cons.inj same).1])
      rw [whole?.eq_2 _ noZero', digits?_goesThrough read ends]

theorem unsigned?_goesThrough : GoesThrough unsigned? := by
  intro cs ds after rest read ends
  unfold unsigned? at read
  split at read
  · cases read
  · rename_i whole
    split at read
    · cases read
    · rename_i fraction
      obtain ⟨p, exponent, same⟩ := Option.map_eq_some_iff.1 read
      cases same
      simp only [unsigned?, whole?_goesThrough whole ends, fraction?_goesThrough fraction ends,
        exponent?_goesThrough exponent ends, Option.map_some]

theorem number?_goesThrough : GoesThrough number? := by
  intro cs ds after rest read ends
  unfold number? at read
  split at read
  · obtain ⟨p, digits, same⟩ := Option.map_eq_some_iff.1 read
    cases same
    rw [List.cons_append, number?, unsigned?_goesThrough digits ends, Option.map_some]
  · rename_i noSign
    cases cs with
    | nil => cases read
    | cons c cs =>
      have noSign' : ∀ more, c :: cs ++ rest = '-' :: more → False :=
        fun _ same => noSign cs (by rw [(List.cons.inj same).1])
      rw [number?.eq_2 _ noSign', unsigned?_goesThrough read ends]

def IsNumber (literal : String) : Prop := number? literal.toList = some (literal.toList, [])

theorem number?_head {cs ds after : List Char} (read : number? cs = some (ds, after)) :
    ∃ c more, cs = c :: more ∧ (c = '-' ∨ c.isDigit = true) := by
  cases cs with
  | nil => cases read
  | cons c more =>
    refine ⟨c, more, rfl, or_iff_not_imp_left.2 fun noSign => ?_⟩
    rw [number?.eq_2 _ fun _ same => noSign (List.cons.inj same).1] at read
    by_contra noDigit
    have noZero : ∀ more', c :: more = '0' :: more' → False := by
      rintro _ ⟨⟩
      exact noDigit rfl
    have none : digits? (c :: more) = none := by simp [digits?, noDigit]
    simp [unsigned?, whole?.eq_2 _ noZero, none] at read

theorem lexeme?_sign {c : Char} (first : c = '-' ∨ c.isDigit = true) (more : List Char) :
    lexeme? (c :: more) =
      (number? (c :: more)).map fun read => (.number (String.ofList read.1), read.2) := by
  unfold lexeme?
  split
  case h_11 => rfl
  all_goals
    rename_i same
    cases same
    exact absurd first (by decide)

theorem lexeme?_number {literal : String} (isNumber : IsNumber literal) {rest : List Char}
    (ends : EndsNumber rest) : lexeme? (literal.toList ++ rest) = some (.number literal, rest) := by
  have read := number?_goesThrough isNumber ends
  obtain ⟨c, more, start, first⟩ := number?_head isNumber
  rw [start, List.cons_append, lexeme?_sign first, ← List.cons_append, ← start, read,
    Option.map_some, String.ofList_toList, List.nil_append]

theorem toDigits_head {n : Nat} (positive : 0 < n) :
    ∀ c ∈ (Nat.toDigits 10 n).head?, c ≠ '0' := by
  have single : ∀ d < 10, 0 < d → d.digitChar ≠ '0' := by decide
  induction n using Nat.strongRecOn with
  | ind n ih =>
    by_cases small : n < 10
    · rw [Nat.toDigits_of_lt_base small]
      rintro _ ⟨⟩
      exact single n small positive
    · rw [Nat.toDigits_of_base_le (by decide) (by omega)]
      intro c hc
      rw [List.head?_append_of_ne_nil _ Nat.toDigits_ne_nil] at hc
      exact ih (n / 10) (by omega) (by omega) c hc

theorem isNumber_toString (n : Nat) : IsNumber (toString n) := by
  rw [IsNumber, Nat.toString_eq_ofList_toDigits, String.toList_ofList]
  rcases Nat.eq_zero_or_pos n with rfl | positive
  · rfl
  · have digits : ∀ c ∈ Nat.toDigits 10 n, c.isDigit = true :=
      fun c => Nat.isDigit_of_mem_toDigits (by decide) (by decide)
    have noZero : ∀ more, Nat.toDigits 10 n = '0' :: more → False :=
      fun more same => toDigits_head positive '0' (by rw [same]; rfl) rfl
    have noSign : ∀ more, Nat.toDigits 10 n = '-' :: more → False :=
      fun more same => absurd (digits '-' (by rw [same]; exact List.mem_cons_self)) (by decide)
    have run : digits? (Nat.toDigits 10 n) = some (Nat.toDigits 10 n, []) := by
      have taken := List.takeWhile_eq_self_iff.2 digits
      have dropped := List.dropWhile_eq_nil_iff.2 digits
      simp only [digits?, taken, dropped, List.isEmpty_iff, Nat.toDigits_ne_nil, if_false]
    rw [number?.eq_2 _ noSign, unsigned?, whole?.eq_2 _ noZero, run]
    simp [fraction?, exponent?]

theorem nat?_ofNat (n : Nat) : (ofNat n).nat? = some n := by
  have digits : ∀ c ∈ Nat.toDigits 10 n, c.isDigit = true :=
    fun c => Nat.isDigit_of_mem_toDigits (by decide) (by decide)
  rw [ofNat, nat?, Nat.toString_eq_ofList_toDigits, String.toList_ofList,
    if_pos (List.all_eq_true.2 digits), Nat.ofDigitChars_ten_toDigits]

/-! ## Trees -/

theorem lexemes?_space {c : Char} (space : isSpace c = true) (cs : List Char) :
    lexemes? (c :: cs) = lexemes? cs := by
  rw [lexemes?.eq_def, lexemes?.eq_def cs, List.dropWhile_cons_of_pos space]

theorem lexeme?_space {c : Char} (space : isSpace c = true) (cs : List Char) :
    lexeme? (c :: cs) = none := by
  simp only [isSpace, Bool.or_eq_true, beq_iff_eq] at space
  rcases space with ((rfl | rfl) | rfl) | rfl <;> rfl

theorem lexemes?_lexeme {cs rest : List Char} {l : Lexeme} (cut : lexeme? cs = some (l, rest)) :
    lexemes? cs = (lexemes? rest).map (l :: ·) := by
  cases cs with
  | nil => cases cut
  | cons c more =>
    have noSpace : ¬ isSpace c = true := by
      intro space
      rw [lexeme?_space space] at cut
      cases cut
    rw [lexemes?.eq_def, List.dropWhile_cons_of_neg noSpace]
    split
    · rename_i same
      cases same
    · rename_i same
      cases same
      split
      · rename_i missing
        rw [cut] at missing
        cases missing
      · rename_i found
        rw [cut] at found
        cases found
        rfl

def State.after? (state : State) (cs : List Char) : Option State :=
  (lexemes? cs).bind fun ls => ls.foldlM State.step state

variable {state : State} {within : List Frame} {cs rest : List Char}

theorem after?_nil (state : State) : state.after? [] = some state := by
  rw [State.after?, lexemes?.eq_def]
  rfl

theorem after?_space {c : Char} (space : isSpace c = true) :
    state.after? (c :: cs) = state.after? cs := by
  rw [State.after?, lexemes?_space space, State.after?]

theorem after?_lineStart (level : Nat) :
    state.after? (lineStart level ++ cs) = state.after? cs := by
  have spaces : ∀ n, state.after? (List.replicate n ' ' ++ cs) = state.after? cs := by
    intro n
    induction n with
    | zero => rfl
    | succ n ih => rw [List.replicate_succ, List.cons_append, after?_space rfl, ih]
  rw [lineStart, List.cons_append, after?_space rfl, spaces]

theorem after?_lexeme {l : Lexeme} {next : State} (cut : lexeme? cs = some (l, rest))
    (step : state.step l = some next) : state.after? cs = next.after? rest := by
  have first : ∀ ls, (l :: ls).foldlM State.step state = ls.foldlM State.step next := by
    intro ls
    rw [List.foldlM_cons, step]
    rfl
  rw [State.after?, lexemes?_lexeme cut, Option.bind_map, State.after?]
  simp only [Function.comp_def, first]

/-- The trees that JSON texts stand for: numbers are numbers of the format, and all strings and keys
are texts. -/
inductive Proper : Json → Prop
  | null : Proper .null
  | bool (value : Bool) : Proper (.bool value)
  | number {literal : String} (isNumber : IsNumber literal) : Proper (.number literal)
  | string (s : String) : Proper (.ofText s)
  | array {elements : List Json} (each : ∀ e ∈ elements, Proper e) : Proper (.array elements)
  | object {members : List (String × Json)} (each : ∀ m ∈ members, Proper m.2) :
      Proper (.ofMembers members)

def State.Awaits (state : State) (within : List Frame) : Prop :=
  ∀ l, l ≠ .closeArray → state.step l = State.stepValue within l

def Reads (j : Json) : Prop :=
  ∀ (level : Nat) {state : State} {within : List Frame} {rest : List Char}, state.Awaits within →
    EndsNumber rest →
      state.after? (j.chars level ++ rest) = (State.complete j within).after? rest

theorem awaits_value (within : List Frame) : (State.value within).Awaits within :=
  fun _ _ => rfl

theorem awaits_firstElement (within : List Frame) :
    (State.firstElement within).Awaits (.array [] :: within) := by
  intro l other
  cases l <;> first | rfl | exact absurd rfl other

theorem endsNumber_elements (level : Nat) (es : List Json) (rest : List Char) :
    EndsNumber (elementsChars level es ++ rest) := by
  cases es <;> rintro c ⟨⟩ <;> decide

theorem endsNumber_members (level : Nat) (ms : List (Option String × Json)) (rest : List Char) :
    EndsNumber (membersChars level ms ++ rest) := by
  cases ms <;> rintro c ⟨⟩ <;> decide

/-- The elements after the first, up to the bracket that closes the array. -/
theorem elements_read {es : List Json} (each : ∀ e ∈ es, Reads e) (level : Nat)
    (before : List Json) (done : Json) :
    (State.complete done (.array before :: within)).after? (elementsChars level es ++ rest) =
      (State.complete (.array (before.reverse ++ done :: es)) within).after? rest := by
  induction es generalizing before done with
  | nil =>
    rw [elementsChars, List.append_assoc, after?_lineStart]
    apply after?_lexeme rfl
    simp [State.step, State.stepComplete]
  | cons e es ih =>
    obtain ⟨here, later⟩ := List.forall_mem_cons.1 each
    rw [elementsChars]
    simp only [List.cons_append, List.append_assoc]
    rw [after?_lexeme rfl rfl, after?_lineStart,
      here (level + 1) (awaits_value _) (endsNumber_elements level es rest), ih later]
    simp

def keyed (members : List (String × Json)) : List (Option String × Json) :=
  members.map fun m => (some m.1, m.2)

/-- The members after the first, up to the brace that closes the object. -/
theorem members_read {ms : List (String × Json)} (each : ∀ m ∈ ms, Reads m.2) (level : Nat)
    (before : List (Option String × Json)) (key : Option String) (done : Json) :
    (State.complete done (.object before key :: within)).after?
        (membersChars level (keyed ms) ++ rest) =
      (State.complete (.object (before.reverse ++ (key, done) :: keyed ms)) within).after?
        rest := by
  induction ms generalizing before key done with
  | nil =>
    rw [keyed, List.map_nil, membersChars, List.append_assoc, after?_lineStart]
    apply after?_lexeme rfl
    simp [State.step, State.stepComplete]
  | cons m ms ih =>
    obtain ⟨here, later⟩ := List.forall_mem_cons.1 each
    rw [keyed, List.map_cons, ← keyed, membersChars]
    simp only [List.cons_append, List.append_assoc, Option.getD_some]
    rw [after?_lexeme rfl rfl, after?_lineStart, after?_lexeme (lexeme?_stringChars _ _) rfl,
      after?_lexeme rfl rfl, after?_space rfl,
      here (level + 1) (awaits_value _) (endsNumber_members level (keyed ms) rest), ih later]
    simp

theorem Proper.reads {j : Json} (proper : Proper j) : Reads j := by
  induction proper with
  | null =>
    intro level state within rest awaits ends
    rw [chars]
    exact after?_lexeme rfl (awaits .null nofun)
  | bool value =>
    intro level state within rest awaits ends
    cases value with
    | true =>
      rw [chars]
      exact after?_lexeme rfl (awaits (.bool true) nofun)
    | false =>
      rw [chars]
      exact after?_lexeme rfl (awaits (.bool false) nofun)
  | @number literal isNumber =>
    intro level state within rest awaits ends
    rw [chars]
    exact after?_lexeme (lexeme?_number isNumber ends) (awaits (.number literal) nofun)
  | string s =>
    intro level state within rest awaits ends
    rw [ofText, chars, Option.getD_some]
    exact after?_lexeme (lexeme?_stringChars s rest) (awaits (.string (some s)) nofun)
  | @array elements each ih =>
    intro level state within rest awaits ends
    have opened : state.step .openArray = some (.firstElement within) := awaits .openArray nofun
    cases elements with
    | nil =>
      rw [chars]
      exact (after?_lexeme rfl opened).trans (after?_lexeme rfl rfl)
    | cons e es =>
      obtain ⟨here, later⟩ := List.forall_mem_cons.1 ih
      rw [chars]
      simp only [List.cons_append, List.append_assoc]
      rw [after?_lexeme rfl opened, after?_lineStart,
        here (level + 1) (awaits_firstElement within) (endsNumber_elements level es rest),
        elements_read later, List.reverse_nil, List.nil_append]
  | @object members each ih =>
    intro level state within rest awaits ends
    have opened : state.step .openObject = some (.firstKey within) := awaits .openObject nofun
    cases members with
    | nil =>
      rw [ofMembers, List.map_nil, chars]
      exact (after?_lexeme rfl opened).trans (after?_lexeme rfl rfl)
    | cons m ms =>
      obtain ⟨here, later⟩ := List.forall_mem_cons.1 ih
      rw [ofMembers, List.map_cons, ← keyed, chars, Option.getD_some]
      simp only [List.cons_append, List.append_assoc]
      rw [after?_lexeme rfl opened, after?_lineStart, after?_lexeme (lexeme?_stringChars _ _) rfl,
        after?_lexeme rfl rfl, after?_space rfl,
        here (level + 1) (awaits_value _) (endsNumber_members level (keyed ms) rest),
        members_read later, List.reverse_nil, List.nil_append]

theorem read?_write {j : Json} (proper : Proper j) : read? j.write = some j := by
  have whole : (State.value []).after? (j.chars 0 ++ []) = (State.complete j []).after? [] :=
    proper.reads 0 (awaits_value []) nofun
  rw [List.append_nil, after?_nil, State.after?, Option.bind_eq_some_iff] at whole
  obtain ⟨ls, cut, run⟩ := whole
  rw [read?, write, String.toList_ofList, cut, Option.bind_some, ofLexemes?, run]
  rfl

end Gatekeeper.Json
