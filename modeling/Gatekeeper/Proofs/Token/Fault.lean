import Gatekeeper.Expr.Parse
import Gatekeeper.Proofs.Token.Layout

/-!
# Where a scan stops

A text that has no layout has one up to some character at which no lexeme begins. The scan stops
there, with the tokens of that layout, and no longer part of the text is laid out. So lexing takes a
text apart without loss: every text is cut into its tokens and blanks, or up to the first character
that belongs to neither.
-/

set_option autoImplicit false

namespace Gatekeeper

/-- No lexeme begins with the character where this text follows it: a sigil without a name, half an
operator, a quote that is not closed, or a character that no lexeme ever begins with. -/
inductive Unlexed : Char → List Char → Prop
  | sigil {rest : List Char} (bare : ∀ c ∈ rest.head?, isWordChar c = false) : Unlexed '$' rest
  | sign {c : Char} {rest : List Char} (isSign : c = '=' ∨ c = '!')
      (single : ∀ d ∈ rest.head?, d ≠ '=') : Unlexed c rest
  | quote {c : Char} {rest : List Char} (isQuote : c = '"' ∨ c = '\'') (unclosed : c ∉ rest) :
      Unlexed c rest
  | foreign {c : Char} {rest : List Char} (solid : isBlank c = false)
      (never : ∀ kind cs, ¬ Spelling kind (c :: cs)) : Unlexed c rest

variable {c : Char} {rest : List Char}

theorem lexeme?_name (word : isWordChar c = true) (rest : List Char) :
    lexeme? (c :: rest) ≠ none := by
  rw [lexeme?_word word]
  split_ifs <;> simp

theorem lexeme?_sigil (word : isWordChar c = true) (rest : List Char) :
    lexeme? ('$' :: c :: rest) ≠ none := by
  show (if isWordChar c then some (wordLexeme .variable ['$'] isWordChar (c :: rest))
    else none) ≠ none
  simp [word]

theorem lexeme?_sign (isSign : c = '=' ∨ c = '!') (rest : List Char) :
    lexeme? (c :: '=' :: rest) ≠ none := by
  rcases isSign with rfl | rfl <;> nofun

theorem lexeme?_closed (isQuote : c = '"' ∨ c = '\'') (closed : c ∈ rest) :
    lexeme? (c :: rest) ≠ none := by
  obtain ⟨inside, after, rfl, absent⟩ := List.eq_append_cons_of_mem closed
  have cut : stringLexeme? c (inside ++ c :: after) ≠ none := by
    simp [stringLexeme?_append absent after]
  rcases isQuote with rfl | rfl <;> exact cut

theorem Unlexed.of_lexeme? (solid : isBlank c = false) (none : lexeme? (c :: rest) = none) :
    Unlexed c rest := by
  by_cases sigil : c = '$'
  · subst sigil
    refine .sigil fun d hd => ?_
    obtain ⟨more, rfl⟩ := List.head?_eq_some_iff.1 hd
    by_contra word
    exact lexeme?_sigil (by simpa using word) more none
  by_cases isSign : c = '=' ∨ c = '!'
  · refine .sign isSign ?_
    rintro d hd rfl
    obtain ⟨more, rfl⟩ := List.head?_eq_some_iff.1 hd
    exact lexeme?_sign isSign more none
  by_cases isQuote : c = '"' ∨ c = '\''
  · exact .quote isQuote fun closed => lexeme?_closed isQuote closed none
  -- Every other character that begins a spelling is a lexeme or begins a name by itself.
  refine .foreign solid fun kind cs spelling => ?_
  generalize same : c :: cs = text at spelling
  cases spelling with
  | comma | dot | openParen | closeParen => cases same; cases none
  | equality => cases same; exact isSign (.inl rfl)
  | inequality => cases same; exact isSign (.inr rfl)
  | number first others => cases same; exact lexeme?_name (isDigit_isWordChar first) rest none
  | «variable» => cases same; exact sigil rfl
  | identifier first noDigit others => cases same; exact lexeme?_name first rest none
  | string isQuote' inside => cases same; exact isQuote isQuote'

namespace Unlexed

theorem lexeme?_eq_none (unlexed : Unlexed c rest) : lexeme? (c :: rest) = none := by
  cases unlexed with
  | sigil bare =>
    cases rest with
    | nil => rfl
    | cons d more =>
      show (if isWordChar d then _ else none) = none
      rw [bare d rfl]
      rfl
  | sign isSign single =>
    cases rest with
    | nil => rcases isSign with rfl | rfl <;> rfl
    | cons d more =>
      have other : d ≠ '=' := single d rfl
      rcases isSign with rfl | rfl <;> simp [lexeme?, other, isWordChar]
  | quote isQuote unclosed =>
    have runs : rest.dropWhile (· != c) = [] := by
      rw [List.dropWhile_eq_nil_iff]
      intro d hd
      simpa using fun same : d = c => unclosed (same ▸ hd)
    have endless : stringLexeme? c rest = none := by rw [stringLexeme?, runs]
    rcases isQuote with rfl | rfl <;> exact endless
  | foreign solid never =>
    cases found : lexeme? (c :: rest) with
    | none => rfl
    | some l =>
      obtain ⟨cut, spelling, -⟩ := lexeme?_eq_some.1 found
      obtain ⟨c', others, chars, -⟩ := spelling.head
      rw [chars, List.cons_append, List.cons.injEq] at cut
      rw [chars, ← cut.1] at spelling
      exact absurd spelling (never _ _)

theorem solid (unlexed : Unlexed c rest) : isBlank c = false := by
  cases unlexed with
  | sigil => rfl
  | sign isSign => rcases isSign with rfl | rfl <;> rfl
  | quote isQuote => rcases isQuote with rfl | rfl <;> rfl
  | foreign solid => exact solid

theorem noName (unlexed : Unlexed c rest) : isWordChar c = false := by
  by_contra word
  exact lexeme?_name (by simpa using word) rest unlexed.lexeme?_eq_none

/-- The character ends every token before it. -/
theorem ends (unlexed : Unlexed c rest) (kind : TokenKind) : kind.goesOn c = false := by
  have noDigit : c.isDigit = false := by
    by_contra digit
    have word := isDigit_isWordChar (by simpa using digit)
    rw [unlexed.noName] at word
    cases word
  cases kind <;> first | rfl | exact noDigit | exact unlexed.noName

/-- Cutting the text off after the character makes no lexeme of it. -/
theorem of_prefix {part : List Char} (unlexed : Unlexed c rest) (cut : part <+: rest) :
    Unlexed c part := by
  obtain ⟨more, rfl⟩ := cut
  have head : ∀ d ∈ part.head?, d ∈ (part ++ more).head? := by
    cases part with
    | nil => nofun
    | cons d part => exact fun _ hd => hd
  cases unlexed with
  | sigil bare => exact .sigil fun d hd => bare d (head d hd)
  | sign isSign single => exact .sign isSign fun d hd => single d (head d hd)
  | quote isQuote unclosed =>
    exact .quote isQuote fun here => unclosed (List.mem_append_left _ here)
  | foreign solid never => exact .foreign solid never

end Unlexed

/-! ## The scan up to the fault -/

theorem TokenKind.EndsBefore.append_unlexed {kind : TokenKind} {before : List Char}
    (ends : kind.EndsBefore before) (unlexed : Unlexed c rest) :
    kind.EndsBefore (before ++ c :: rest) := by
  cases before with
  | nil =>
    rintro _ ⟨⟩
    exact unlexed.ends kind
  | cons d before => exact ends

theorem TokenKind.EndsBefore.of_append {kind : TokenKind} {before after : List Char}
    (ends : kind.EndsBefore (before ++ after)) : kind.EndsBefore before := by
  cases before with
  | nil => nofun
  | cons d before => exact ends

def Stuck (offset : Nat) (tokens : List Token) (fault : LexicalFault) (cs : List Char) : Prop :=
  ∃ before after, cs = before ++ fault.character :: after ∧ Layout offset tokens before ∧
    fault.offset = offset + byteLength before ∧ Unlexed fault.character after

namespace Cursor

variable {cur : Cursor} {fault : LexicalFault}

theorem next_stuck : (∃ stopped, cur.next = (.stuck fault, stopped)) ↔
    Stuck cur.offset [] fault cur.rest := by
  constructor
  · rintro ⟨stopped, h⟩
    obtain ⟨split, blank, stop⟩ := run_split isBlank cur.rest
    simp only [next, skipBlanks] at h
    split at h
    · cases h
    · rename_i ch more here
      split at h
      · rename_i none
        cases h
        rw [here] at split stop none
        exact ⟨_, more, split, .blanks blank, rfl, .of_lexeme? (stop ch rfl) none⟩
      · cases h
  · rintro ⟨before, after, split, layout, place, unlexed⟩
    cases layout with
    | blanks blank =>
      obtain ⟨text, offset⟩ := cur
      obtain ⟨character, at'⟩ := fault
      dsimp only at split place unlexed
      subst split place
      have stop : ∀ ch ∈ (character :: after).head?, isBlank ch = false := by
        rintro _ ⟨⟩
        exact unlexed.solid
      refine ⟨⟨character :: after, offset + byteLength before⟩, ?_⟩
      simp only [next, skipBlanks_append blank stop, unlexed.lexeme?_eq_none]

/-- A scan with a fault finds the layout of the text before it. -/
theorem scan_eq_stuck {tokens : List Token} :
    cur.scan = ⟨tokens, some fault⟩ ↔ Stuck cur.offset tokens fault cur.rest := by
  constructor
  · intro h
    induction cur using Cursor.scan.induct generalizing tokens with
    | case1 cur stopped finished =>
      rw [scan_finished finished] at h
      cases h
    | case2 cur fault' stopped stuck =>
      rw [scan_stuck stuck] at h
      cases h
      exact next_stuck.1 ⟨stopped, stuck⟩
    | case3 cur t after pulled ih =>
      rw [scan_token pulled] at h
      obtain ⟨rfl, faulty⟩ := Scan.mk.inj h
      obtain ⟨spelling, ends, ⟨blanks, blank, place, split⟩, offset⟩ := next_eq_token.1 pulled
      obtain ⟨before, left, here, layout, reached, unlexed⟩ := ih (by rw [← faulty])
      rw [here] at ends split
      rw [offset] at layout reached
      refine ⟨_, left, ?_, .token blank place spelling ends.of_append layout, ?_, unlexed⟩
      · rw [split]
        simp
      · rw [reached, place, byteLength_append, byteLength_append]
        omega
  · rintro ⟨before, after, split, layout, place, unlexed⟩
    obtain ⟨text, offset⟩ := cur
    dsimp only at split layout place
    subst split
    induction layout with
    | @blanks offset cs blank =>
      have here : Stuck offset [] fault (cs ++ fault.character :: after) :=
        ⟨cs, after, rfl, .blanks blank, place, unlexed⟩
      obtain ⟨stopped, stuck⟩ : ∃ stopped,
        Cursor.next ⟨cs ++ fault.character :: after, offset⟩ = (.stuck fault, stopped) :=
          next_stuck.2 here
      exact scan_stuck stuck
    | @token offset t ts blanks cs blank start spelling ends later ih =>
      have pulls : Pulls ⟨blanks ++ t.text.toList ++ cs ++ fault.character :: after, offset⟩ t
          ⟨cs ++ fault.character :: after, t.offset + byteLength t.text.toList⟩ :=
        ⟨spelling, ends.append_unlexed unlexed, ⟨blanks, blank, start, by simp⟩, rfl⟩
      have reached : fault.offset = t.offset + byteLength t.text.toList + byteLength cs := by
        rw [place, start, byteLength_append, byteLength_append]
        omega
      rw [scan_token (next_eq_token.2 pulls), ih reached]

end Cursor

theorem scan_eq_stuck {source : String} {tokens : List Token} {fault : LexicalFault} :
    scan source = ⟨tokens, some fault⟩ ↔ Stuck 0 tokens fault source.toList :=
  Cursor.scan_eq_stuck

/-! ## The slices of a text -/

theorem byteLength_eq (cs : List Char) : byteLength cs = (String.ofList cs).utf8ByteSize := by
  induction cs with
  | nil => rfl
  | cons c cs ih => simp [byteLength, ih]

def Token.SliceOf (t : Token) (source : String) : Prop :=
  ∃ before after, source = before ++ t.text ++ after ∧ t.offset = before.utf8ByteSize

def Token.Before (t later : Token) : Prop :=
  t.offset < later.offset ∧ t.offset + t.text.utf8ByteSize ≤ later.offset

namespace Layout

variable {offset : Nat} {tokens : List Token} {cs : List Char}

theorem offset_le (layout : Layout offset tokens cs) : ∀ t ∈ tokens, offset ≤ t.offset := by
  induction layout with
  | blanks => simp
  | token blank place spelling ends later ih =>
    refine List.forall_mem_cons.2 ⟨by omega, fun t ht => ?_⟩
    have := ih t ht
    omega

theorem slice (layout : Layout offset tokens cs) : ∀ t ∈ tokens, ∃ before after,
    cs = before ++ t.text.toList ++ after ∧ t.offset = offset + byteLength before := by
  induction layout with
  | blanks => simp
  | @token offset t ts blanks rest blank place spelling ends later ih =>
    refine List.forall_mem_cons.2 ⟨⟨blanks, rest, rfl, place⟩, fun u hu => ?_⟩
    obtain ⟨before, after, rfl, reached⟩ := ih u hu
    refine ⟨blanks ++ t.text.toList ++ before, after, by simp, ?_⟩
    rw [reached, place, byteLength_append, byteLength_append]
    omega

theorem apart (layout : Layout offset tokens cs) : tokens.Pairwise Token.Before := by
  induction layout with
  | blanks => exact .nil
  | @token offset t ts blanks rest blank place spelling ends later ih =>
    refine List.pairwise_cons.2 ⟨fun u hu => ?_, ih⟩
    have reached := later.offset_le u hu
    have long := spelling.byteLength_pos
    have bytes := byteLength_eq t.text.toList
    rw [String.ofList_toList] at bytes
    constructor <;> omega

end Layout

theorem Token.SliceOf.of_split {t : Token} {source : String} {before after : List Char}
    (split : source.toList = before ++ t.text.toList ++ after)
    (place : t.offset = byteLength before) : t.SliceOf source := by
  refine ⟨String.ofList before, String.ofList after, ?_, ?_⟩
  · apply String.toList_inj.1
    simpa using split
  · rw [place, byteLength_eq]

theorem Layout.sliceOf {tokens : List Token} {source : String}
    (layout : Layout 0 tokens source.toList) : ∀ t ∈ tokens, t.SliceOf source := by
  intro t ht
  obtain ⟨before, after, split, place⟩ := layout.slice t ht
  exact .of_split split (by rw [place, Nat.zero_add])

/-! ## Texts and their parts -/

theorem tokenize_eq_ok {source : String} {tokens : List Token} :
    tokenize source = .ok tokens ↔ Layout 0 tokens source.toList := by
  rw [← scan_eq_layout]
  unfold tokenize
  obtain ⟨found, fault⟩ := scan source
  cases fault <;> simp

theorem tokenize_eq_error {source : String} {e : Error} (h : tokenize source = .error e) :
    ∃ tokens fault, e = .lexical fault ∧ Stuck 0 tokens fault source.toList := by
  cases faulty : (scan source).fault with
  | none => simp [tokenize, faulty] at h
  | some fault =>
    obtain rfl : .lexical fault = e := by simpa [tokenize, faulty] using h
    exact ⟨_, fault, rfl, scan_eq_stuck.1 (by rw [← faulty])⟩

/-- A layout that ends before a character at which no lexeme begins is the longest: no part of the
text from its start reaches beyond the character and is laid out too. -/
theorem Layout.longest {offset : Nat} {tokens : List Token} {before after part : List Char}
    (layout : Layout offset tokens before) (unlexed : Unlexed c after)
    (within : part <+: before ++ c :: after) (laid : ∃ tokens', Layout offset tokens' part) :
    part <+: before := by
  rcases List.prefix_or_prefix_of_prefix within (List.prefix_append _ _) with
    shorter | ⟨beyond, rfl⟩
  · exact shorter
  cases beyond with
  | nil => simp
  | cons d beyond =>
    obtain ⟨rfl, cut⟩ : d = c ∧ beyond <+: after := by
      simpa [List.prefix_append_right_inj] using within
    obtain ⟨tokens', laid⟩ := laid
    have stuck : Stuck offset tokens ⟨d, offset + byteLength before⟩ (before ++ d :: beyond) :=
      ⟨before, beyond, rfl, layout, rfl, unlexed.of_prefix cut⟩
    have faulty : Cursor.scan ⟨before ++ d :: beyond, offset⟩ = ⟨tokens, some _⟩ :=
      Cursor.scan_eq_stuck.2 stuck
    have faultless : Cursor.scan ⟨before ++ d :: beyond, offset⟩ = ⟨tokens', none⟩ :=
      Cursor.scan_eq.2 laid
    rw [faulty] at faultless
    cases faultless

/-- A text is cut without loss. Its tokens are those laid out in it, each the slice at its offset,
one after the other. If it has no layout, the fault is at the first character after the longest
part of it that has one, and there no lexeme begins. -/
theorem tokenize_partition (source : String) :
    (∀ tokens, tokenize source = .ok tokens ↔ Layout 0 tokens source.toList) ∧
    (∀ tokens, tokenize source = .ok tokens →
      (∀ t ∈ tokens, t.SliceOf source) ∧ tokens.Pairwise Token.Before) ∧
    ∀ e, tokenize source = .error e → ∃ before c after,
      e = .lexical ⟨c, byteLength before⟩ ∧ source.toList = before ++ c :: after ∧
      (∃ tokens, Layout 0 tokens before) ∧
      (∀ part, part <+: source.toList → (∃ tokens, Layout 0 tokens part) → part <+: before) ∧
      Unlexed c after := by
  refine ⟨fun tokens => tokenize_eq_ok, fun tokens h => ?_, fun e h => ?_⟩
  · have layout := tokenize_eq_ok.1 h
    exact ⟨layout.sliceOf, layout.apart⟩
  · obtain ⟨tokens, ⟨c, offset⟩, rfl, before, after, split, layout, place, unlexed⟩ :=
      tokenize_eq_error h
    refine ⟨before, c, after, ?_, split, ⟨tokens, layout⟩, fun part within laid => ?_, unlexed⟩
    · rw [← Nat.zero_add (byteLength before), ← place]
    · rw [split] at within
      exact layout.longest unlexed within laid

/-- A blank of two bytes stands before the quote that is not closed. -/
example : tokenize "a\u00A0 'b" = .error (.lexical ⟨'\'', 4⟩) := by cbv

end Gatekeeper
