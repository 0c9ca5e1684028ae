import Gatekeeper.Token.Scan
import Mathlib.Data.List.TakeWhile

/-!
# Layouts

How a text may hold a sequence of tokens, told without scanning: which spellings a kind of token
has, what may not follow one, and how tokens and blanks make up a text. A scan that meets no fault
finds exactly the tokens that are laid out in the text, and every layout is scanned.
-/

set_option autoImplicit false

namespace Gatekeeper

inductive Spelling : TokenKind → List Char → Prop
  | comma : Spelling .comma [',']
  | dot : Spelling .dot ['.']
  | openParen : Spelling .openParen ['(']
  | closeParen : Spelling .closeParen [')']
  | equality : Spelling .equality ['=', '=']
  | inequality : Spelling .inequality ['!', '=']
  | number {c : Char} {cs : List Char} (first : c.isDigit = true)
      (others : ∀ d ∈ cs, d.isDigit = true) : Spelling .number (c :: cs)
  | variable {c : Char} {cs : List Char} (first : isWordChar c = true)
      (others : ∀ d ∈ cs, isWordChar d = true) : Spelling .variable ('$' :: c :: cs)
  | identifier {c : Char} {cs : List Char} (first : isWordChar c = true)
      (noDigit : c.isDigit = false) (others : ∀ d ∈ cs, isWordChar d = true) :
      Spelling .identifier (c :: cs)
  | string {quote : Char} {cs : List Char} (isQuote : quote = '"' ∨ quote = '\'')
      (inside : quote ∉ cs) : Spelling .string (quote :: cs ++ [quote])

def TokenKind.goesOn : TokenKind → Char → Bool
  | .number, c => c.isDigit
  | .variable, c => isWordChar c
  | .identifier, c => isWordChar c
  | _, _ => false

def TokenKind.EndsBefore (kind : TokenKind) (rest : List Char) : Prop :=
  ∀ c ∈ rest.head?, kind.goesOn c = false

theorem TokenKind.EndsBefore.of_free {kind : TokenKind} (free : kind.goesOn = fun _ => false)
    (rest : List Char) : kind.EndsBefore rest :=
  fun c _ => congrFun free c

/-- The tokens stand in the text in order, each at its offset and as long as it can be, with
nothing but blanks around them. -/
inductive Layout : Nat → List Token → List Char → Prop
  | blanks {offset : Nat} {cs : List Char} (blank : ∀ c ∈ cs, isBlank c = true) :
      Layout offset [] cs
  | token {offset : Nat} {t : Token} {ts : List Token} {before rest : List Char}
      (blank : ∀ c ∈ before, isBlank c = true) (place : t.offset = offset + byteLength before)
      (spelling : Spelling t.kind t.text.toList) (ends : t.kind.EndsBefore rest)
      (later : Layout (t.offset + byteLength t.text.toList) ts rest) :
      Layout offset (t :: ts) (before ++ t.text.toList ++ rest)

theorem run_append {member : Char → Bool} {run rest : List Char}
    (all : ∀ c ∈ run, member c = true) (stop : ∀ c ∈ rest.head?, member c = false) :
    (run ++ rest).takeWhile member = run ∧ (run ++ rest).dropWhile member = rest := by
  rw [List.takeWhile_append_of_pos all, List.dropWhile_append_of_pos all]
  cases rest with
  | nil => simp
  | cons c rest => simp [stop c rfl]

theorem wordLexeme_append (kind : TokenKind) (before : List Char) {run rest : List Char}
    {member : Char → Bool} (all : ∀ c ∈ run, member c = true)
    (stop : ∀ c ∈ rest.head?, member c = false) :
    wordLexeme kind before member (run ++ rest) = ⟨kind, before ++ run, rest⟩ := by
  obtain ⟨taken, dropped⟩ := run_append all stop
  rw [wordLexeme, taken, dropped]

theorem stringLexeme?_append {quote : Char} {cs : List Char} (inside : quote ∉ cs)
    (rest : List Char) :
    stringLexeme? quote (cs ++ quote :: rest) =
      some ⟨.string, quote :: cs ++ [quote], rest⟩ := by
  have others : ∀ c ∈ cs, (c != quote) = true := by
    intro c hc
    have different : c ≠ quote := fun same => inside (same ▸ hc)
    simpa using different
  have stop : ∀ c ∈ (quote :: rest).head?, (c != quote) = false := by simp
  obtain ⟨taken, dropped⟩ := run_append others stop
  rw [stringLexeme?, dropped, taken]

/-- Where a name's character begins a text the other lexemes are out of question. -/
theorem lexeme?_word {c : Char} {rest : List Char} (word : isWordChar c = true) :
    lexeme? (c :: rest) =
      if c.isDigit then some (wordLexeme .number [] Char.isDigit (c :: rest))
      else some (wordLexeme .identifier [] isWordChar (c :: rest)) := by
  unfold lexeme?
  split
  case h_11 c' rest' _ _ _ _ _ _ _ _ _ same =>
    cases same
    rw [if_pos word]
  all_goals
    rename_i same
    cases same <;> exact absurd word (by decide)

theorem isDigit_isWordChar {c : Char} (digit : c.isDigit = true) : isWordChar c = true := by
  simp [isWordChar, Char.isAlphanum, digit]

/-- A spelling is cut off whole from every text in which it cannot go on. -/
theorem lexeme?_of_spelling {kind : TokenKind} {cs rest : List Char} (spelling : Spelling kind cs)
    (ends : kind.EndsBefore rest) : lexeme? (cs ++ rest) = some ⟨kind, cs, rest⟩ := by
  cases spelling with
  | comma | dot | openParen | closeParen | equality | inequality => rfl
  | @number c cs first others =>
    have all : ∀ d ∈ c :: cs, d.isDigit = true := List.forall_mem_cons.2 ⟨first, others⟩
    have run := wordLexeme_append .number [] all ends
    rw [List.cons_append, lexeme?_word (isDigit_isWordChar first), if_pos first]
    exact congrArg some run
  | @«variable» c cs first others =>
    have all : ∀ d ∈ c :: cs, isWordChar d = true := List.forall_mem_cons.2 ⟨first, others⟩
    have run := wordLexeme_append .variable ['$'] all ends
    show (if isWordChar c then some (wordLexeme .variable ['$'] isWordChar (c :: (cs ++ rest)))
      else none) = _
    rw [if_pos first]
    exact congrArg some run
  | @identifier c cs first noDigit others =>
    have all : ∀ d ∈ c :: cs, isWordChar d = true := List.forall_mem_cons.2 ⟨first, others⟩
    have run := wordLexeme_append .identifier [] all ends
    rw [List.cons_append, lexeme?_word first, if_neg (by simp [noDigit])]
    exact congrArg some run
  | @string quote cs isQuote inside =>
    have cut := stringLexeme?_append inside rest
    rw [List.append_assoc, List.singleton_append, List.cons_append]
    rcases isQuote with rfl | rfl <;> exact cut

theorem run_split (member : Char → Bool) (cs : List Char) :
    cs = cs.takeWhile member ++ cs.dropWhile member ∧
      (∀ c ∈ cs.takeWhile member, member c = true) ∧
        ∀ c ∈ (cs.dropWhile member).head?, member c = false := by
  refine ⟨List.takeWhile_append_dropWhile.symm, List.all_eq_true.1 List.all_takeWhile, ?_⟩
  intro c hc
  have stops := List.head?_dropWhile_not member cs
  rw [hc] at stops
  simpa using stops

theorem stringLexeme?_eq_some {quote : Char} {cs : List Char} {l : Lexeme}
    (h : stringLexeme? quote cs = some l) :
    ∃ inside, cs = inside ++ quote :: l.rest ∧ quote ∉ inside ∧
      l.kind = .string ∧ l.chars = quote :: inside ++ [quote] := by
  obtain ⟨split, others, stop⟩ := run_split (· != quote) cs
  unfold stringLexeme? at h
  split at h
  · cases h
  · rename_i c rest dropped
    cases h
    rw [dropped] at split stop
    have same : c = quote := by simpa using stop c rfl
    subst same
    exact ⟨_, split, fun here => by simpa using others _ here, rfl, rfl⟩

theorem wordLexeme_cons (kind : TokenKind) (before rest : List Char) {member : Char → Bool}
    {c : Char} (first : member c = true) :
    ∃ others after, rest = others ++ after ∧ (∀ d ∈ others, member d = true) ∧
      (∀ d ∈ after.head?, member d = false) ∧
        wordLexeme kind before member (c :: rest) = ⟨kind, before ++ c :: others, after⟩ := by
  obtain ⟨split, all, stop⟩ := run_split member rest
  refine ⟨_, _, split, all, stop, ?_⟩
  rw [wordLexeme, List.takeWhile_cons_of_pos first, List.dropWhile_cons_of_pos first]

/-- What is cut off is spelled as its kind asks for, and is as long as it can be. -/
theorem spelling_of_lexeme? {cs : List Char} {l : Lexeme} (h : lexeme? cs = some l) :
    cs = l.chars ++ l.rest ∧ Spelling l.kind l.chars ∧ l.kind.EndsBefore l.rest := by
  unfold lexeme? at h
  split at h
  case h_1 => cases h
  case h_2 => cases h; exact ⟨rfl, .comma, .of_free rfl _⟩
  case h_3 => cases h; exact ⟨rfl, .dot, .of_free rfl _⟩
  case h_4 => cases h; exact ⟨rfl, .openParen, .of_free rfl _⟩
  case h_5 => cases h; exact ⟨rfl, .closeParen, .of_free rfl _⟩
  case h_6 => cases h; exact ⟨rfl, .equality, .of_free rfl _⟩
  case h_7 => cases h; exact ⟨rfl, .inequality, .of_free rfl _⟩
  case h_8 =>
    obtain ⟨inside, rfl, absent, kind, chars⟩ := stringLexeme?_eq_some h
    rw [kind, chars]
    exact ⟨by simp, .string (.inl rfl) absent, .of_free rfl _⟩
  case h_9 =>
    obtain ⟨inside, rfl, absent, kind, chars⟩ := stringLexeme?_eq_some h
    rw [kind, chars]
    exact ⟨by simp, .string (.inr rfl) absent, .of_free rfl _⟩
  case h_10 c rest =>
    split at h
    · rename_i first
      obtain ⟨others, after, rfl, all, stop, cut⟩ := wordLexeme_cons .variable ['$'] rest first
      rw [cut] at h
      cases h
      exact ⟨rfl, .variable first all, stop⟩
    · cases h
  case h_11 c rest _ _ _ _ _ _ _ _ _ =>
    split at h
    · rename_i first
      obtain ⟨others, after, rfl, all, stop, cut⟩ := wordLexeme_cons .number [] rest first
      rw [cut] at h
      cases h
      exact ⟨rfl, .number first all, stop⟩
    · rename_i noDigit
      split at h
      · rename_i first
        obtain ⟨others, after, rfl, all, stop, cut⟩ := wordLexeme_cons .identifier [] rest first
        rw [cut] at h
        cases h
        exact ⟨rfl, .identifier first (by simpa using noDigit) all, stop⟩
      · cases h

/-- A lexeme is told by its spelling and by what stands after it. -/
theorem lexeme?_eq_some {cs : List Char} {l : Lexeme} : lexeme? cs = some l ↔
    cs = l.chars ++ l.rest ∧ Spelling l.kind l.chars ∧ l.kind.EndsBefore l.rest := by
  constructor
  · exact spelling_of_lexeme?
  · rintro ⟨rfl, spelling, ends⟩
    exact lexeme?_of_spelling spelling ends

theorem isWordChar_bounds {c : Char} (word : isWordChar c = true) :
    0x30 ≤ c.toNat ∧ c.toNat ≤ 0x7A := by
  delta isWordChar Char.isAlphanum Char.isAlpha Char.isUpper Char.isLower Char.isDigit at word
  simp only [Bool.or_eq_true, Bool.and_eq_true, decide_eq_true_eq, UInt32.le_iff_toNat_le,
    beq_iff_eq, ge_iff_le] at word
  rcases word with ((⟨low, high⟩ | ⟨low, high⟩) | ⟨low, high⟩) | rfl
  · exact ⟨Nat.le_trans (by decide) low, Nat.le_trans high (by decide)⟩
  · exact ⟨Nat.le_trans (by decide) low, Nat.le_trans high (by decide)⟩
  · exact ⟨Nat.le_trans (by decide) low, Nat.le_trans high (by decide)⟩
  · decide

theorem isBlank_of_isWordChar {c : Char} (word : isWordChar c = true) : isBlank c = false := by
  have bounds := isWordChar_bounds word
  simp only [isBlank, Bool.or_eq_false_iff, Bool.and_eq_false_iff, decide_eq_false_iff_not,
    beq_eq_false_iff_ne]
  omega

theorem Spelling.head {kind : TokenKind} {cs : List Char} (spelling : Spelling kind cs) :
    ∃ c rest, cs = c :: rest ∧ isBlank c = false := by
  cases spelling with
  | number first others => exact ⟨_, _, rfl, isBlank_of_isWordChar (isDigit_isWordChar first)⟩
  | identifier first noDigit others => exact ⟨_, _, rfl, isBlank_of_isWordChar first⟩
  | string isQuote inside => rcases isQuote with rfl | rfl <;> exact ⟨_, _, rfl, by decide⟩
  | _ => exact ⟨_, _, rfl, by decide⟩

theorem Spelling.byteLength_pos {kind : TokenKind} {cs : List Char} (spelling : Spelling kind cs) :
    0 < byteLength cs := by
  obtain ⟨c, rest, rfl, -⟩ := spelling.head
  have := c.utf8Size_pos
  rw [byteLength]
  omega

namespace Cursor

structure Pulls (c : Cursor) (t : Token) (after : Cursor) : Prop where
  spelling : Spelling t.kind t.text.toList
  ends : t.kind.EndsBefore after.rest
  place : ∃ before, (∀ ch ∈ before, isBlank ch = true) ∧
    t.offset = c.offset + byteLength before ∧ c.rest = before ++ t.text.toList ++ after.rest
  offset : after.offset = t.offset + byteLength t.text.toList

variable {c after : Cursor} {t : Token}

theorem skipBlanks_append {offset : Nat} {before rest : List Char}
    (blank : ∀ ch ∈ before, isBlank ch = true) (stop : ∀ ch ∈ rest.head?, isBlank ch = false) :
    skipBlanks ⟨before ++ rest, offset⟩ = ⟨rest, offset + byteLength before⟩ := by
  obtain ⟨taken, dropped⟩ := run_append blank stop
  rw [skipBlanks, taken, dropped]

theorem next_eq_token : c.next = (.token t, after) ↔ Pulls c t after := by
  constructor
  · intro h
    obtain ⟨split, blank, -⟩ := run_split isBlank c.rest
    simp only [next, skipBlanks] at h
    split at h
    · cases h
    · split at h
      · cases h
      · rename_i l found
        obtain ⟨cut, spelling, ends⟩ := lexeme?_eq_some.1 found
        cases h
        refine ⟨by simpa using spelling, ends, ⟨_, blank, rfl, ?_⟩, by simp⟩
        rw [String.toList_ofList, List.append_assoc, ← cut]
        exact split
  · rintro ⟨spelling, ends, ⟨before, blank, place, split⟩, offset⟩
    obtain ⟨ch, others, text, noBlank⟩ := spelling.head
    have found := lexeme?_of_spelling spelling ends
    have skipped : c.skipBlanks = ⟨t.text.toList ++ after.rest, t.offset⟩ := by
      obtain ⟨rest, start⟩ := c
      subst split
      rw [List.append_assoc, place]
      exact skipBlanks_append blank (by simp [text, noBlank])
    rw [next, skipped]
    simp only [found]
    rw [text, List.cons_append]
    simp only [← text, String.ofList_toList, ← offset]

theorem next_finished : (∃ stopped, c.next = (.finished, stopped)) ↔
    ∀ ch ∈ c.rest, isBlank ch = true := by
  rw [← List.dropWhile_eq_nil_iff]
  change _ ↔ c.skipBlanks.rest = []
  unfold next
  constructor
  · rintro ⟨stopped, h⟩
    dsimp only at h
    split at h
    · assumption
    · split at h <;> cases h
  · intro h
    simp [h]

theorem scan_finished {stopped : Cursor} (h : c.next = (.finished, stopped)) :
    c.scan = ⟨[], none⟩ := by
  rw [scan]
  split <;> simp_all

theorem scan_stuck {fault : LexicalFault} {stopped : Cursor}
    (h : c.next = (.stuck fault, stopped)) : c.scan = ⟨[], some fault⟩ := by
  rw [scan]
  split <;> simp_all

theorem scan_token (h : c.next = (.token t, after)) :
    c.scan = ⟨t :: after.scan.tokens, after.scan.fault⟩ := by
  rw [scan]
  split <;> simp_all

/-- A scan without a fault finds the layout of the text, and no other tokens have one there. -/
theorem scan_eq {tokens : List Token} :
    c.scan = ⟨tokens, none⟩ ↔ Layout c.offset tokens c.rest := by
  constructor
  · intro h
    induction c using Cursor.scan.induct generalizing tokens with
    | case1 c stopped finished =>
      rw [scan_finished finished] at h
      cases h
      exact .blanks (next_finished.1 ⟨stopped, finished⟩)
    | case2 c fault stopped stuck =>
      rw [scan_stuck stuck] at h
      cases h
    | case3 c t after pulled ih =>
      rw [scan_token pulled] at h
      obtain ⟨rfl, faultless⟩ := Scan.mk.inj h
      obtain ⟨spelling, ends, ⟨before, blank, place, split⟩, offset⟩ := next_eq_token.1 pulled
      rw [split]
      apply Layout.token blank place spelling ends
      rw [← offset]
      exact ih (by rw [← faultless])
  · intro layout
    obtain ⟨rest, offset⟩ := c
    dsimp only at layout
    induction layout with
    | @blanks offset cs blank =>
      obtain ⟨stopped, finished⟩ := next_finished (c := ⟨cs, offset⟩).2 blank
      exact scan_finished finished
    | @token offset t ts before rest blank place spelling ends later ih =>
      have pulls : Pulls ⟨before ++ t.text.toList ++ rest, offset⟩ t
          ⟨rest, t.offset + byteLength t.text.toList⟩ :=
        ⟨spelling, ends, ⟨before, blank, place, rfl⟩, rfl⟩
      rw [scan_token (next_eq_token.2 pulls), ih]

end Cursor

theorem scan_eq_layout {source : String} {tokens : List Token} :
    scan source = ⟨tokens, none⟩ ↔ Layout 0 tokens source.toList :=
  Cursor.scan_eq

theorem Layout.spelling {offset : Nat} {tokens : List Token} {cs : List Char}
    (layout : Layout offset tokens cs) : ∀ t ∈ tokens, Spelling t.kind t.text.toList := by
  induction layout with
  | blanks blank => simp
  | token blank place spelling ends later ih => exact List.forall_mem_cons.2 ⟨spelling, ih⟩

end Gatekeeper
