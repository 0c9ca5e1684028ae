import Gatekeeper.Proofs.Token.Fault
import Gatekeeper.Proofs.Expr.Grammar

/-!
# Spacing

The tokens of a text may be written again with other blanks around them, as long as there is one
between neighbours, and are the same but for their offsets. Readers look at kinds and texts of
tokens only, so the same tree is read, or the same fault is found.
-/

set_option autoImplicit false

namespace Gatekeeper

def Token.Alike (t t' : Token) : Prop := t'.kind = t.kind ∧ t'.text = t.text

theorem Token.Alike.shown {t t' : Token} (alike : t.Alike t') : t'.shown = t.shown := by
  rw [Token.shown, Token.shown, alike.2]

inductive Spaced : List Token → List Char → Prop
  | blanks {cs : List Char} (blank : ∀ c ∈ cs, isBlank c = true) : Spaced [] cs
  | last {t : Token} {before after : List Char} (blank : ∀ c ∈ before, isBlank c = true)
      (behind : ∀ c ∈ after, isBlank c = true) : Spaced [t] (before ++ t.text.toList ++ after)
  | further {t next : Token} {ts : List Token} {before gap rest : List Char}
      (blank : ∀ c ∈ before, isBlank c = true) (between : ∀ c ∈ gap, isBlank c = true)
      (apart : gap ≠ []) (later : Spaced (next :: ts) rest) :
      Spaced (t :: next :: ts) (before ++ t.text.toList ++ (gap ++ rest))

theorem TokenKind.not_goesOn_blank {c : Char} (blank : isBlank c = true) (kind : TokenKind) :
    kind.goesOn c = false := by
  have noWord : isWordChar c = false := by
    by_contra word
    simp [isBlank_of_isWordChar (by simpa using word)] at blank
  have noDigit : c.isDigit = false := by
    by_contra digit
    simp [isDigit_isWordChar (by simpa using digit)] at noWord
  cases kind <;> first | rfl | exact noDigit | exact noWord

theorem TokenKind.endsBefore_blanks {gap : List Char} (blank : ∀ c ∈ gap, isBlank c = true)
    (kind : TokenKind) : kind.EndsBefore gap :=
  fun _ hc => kind.not_goesOn_blank (blank _ (List.mem_of_mem_head? hc))

theorem Layout.blanks_append {offset : Nat} {ts : List Token} {gap cs : List Char}
    (blank : ∀ c ∈ gap, isBlank c = true) (layout : Layout (offset + byteLength gap) ts cs) :
    Layout offset ts (gap ++ cs) := by
  cases layout with
  | blanks all => exact .blanks (List.forall_mem_append.2 ⟨blank, all⟩)
  | @token _ t ts before rest all place spelling ends later =>
    have longer : t.offset = offset + byteLength (gap ++ before) := by
      rw [byteLength_append, ← Nat.add_assoc]
      exact place
    have whole := Layout.token (List.forall_mem_append.2 ⟨blank, all⟩) longer spelling ends later
    simpa using whole

/-- Tokens that are spelled as their kinds ask for keep apart where blanks are between them. -/
theorem Spaced.layout {ts : List Token} {cs : List Char} (spaced : Spaced ts cs)
    (spelled : ∀ t ∈ ts, Spelling t.kind t.text.toList) (offset : Nat) :
    ∃ ts', Layout offset ts' cs ∧ List.Forall₂ Token.Alike ts ts' := by
  induction spaced generalizing offset with
  | blanks blank => exact ⟨[], .blanks blank, .nil⟩
  | @last t before after blank behind =>
    let t' : Token := ⟨t.kind, t.text, offset + byteLength before⟩
    have ends := t.kind.endsBefore_blanks behind
    exact ⟨[t'], .token blank rfl (spelled t (by simp)) ends (.blanks behind),
      .cons ⟨rfl, rfl⟩ .nil⟩
  | @further t next ts before gap rest blank between apart later ih =>
    let t' : Token := ⟨t.kind, t.text, offset + byteLength before⟩
    obtain ⟨here, others⟩ := List.forall_mem_cons.1 spelled
    obtain ⟨ts', layout, alike⟩ :=
      ih others (t'.offset + byteLength t'.text.toList + byteLength gap)
    have ends : t.kind.EndsBefore (gap ++ rest) := by
      cases gap with
      | nil => exact absurd rfl apart
      | cons c gap =>
        rintro _ ⟨⟩
        exact t.kind.not_goesOn_blank (between c (by simp))
    have whole : Layout offset (t' :: ts') (before ++ t'.text.toList ++ (gap ++ rest)) :=
      .token blank rfl here ends (layout.blanks_append between)
    exact ⟨t' :: ts', whole, .cons ⟨rfl, rfl⟩ alike⟩

/-! ## Readers of tokens -/

inductive SyntaxFault.Alike : SyntaxFault → SyntaxFault → Prop
  | token {t t' : Token} (alike : t.Alike t') (expected : Expected) :
      Alike (.unexpectedToken t expected) (.unexpectedToken t' expected)
  | atEnd (expected : Expected) : Alike (.unexpectedEnd expected) (.unexpectedEnd expected)

theorem SyntaxFault.Alike.text {fault fault' : SyntaxFault} (alike : fault.Alike fault') :
    fault'.text = fault.text := by
  cases alike with
  | token alike expected =>
    exact congrArg (fun shown => "Unexpected token " ++ shown ++ ", expected " ++ expected.text)
      alike.shown
  | atEnd expected => rfl

inductive ReadAlike {α β : Type} (r : α → β → Prop) :
    Except SyntaxFault α → Except SyntaxFault β → Prop
  | ok {a : α} {b : β} (related : r a b) : ReadAlike r (.ok a) (.ok b)
  | error {fault fault' : SyntaxFault} (alike : fault.Alike fault') :
      ReadAlike r (.error fault) (.error fault')

theorem ReadAlike.bind {α β γ δ : Type} {r : α → β → Prop} {r' : γ → δ → Prop}
    {x : Except SyntaxFault α} {y : Except SyntaxFault β} {f : α → Except SyntaxFault γ}
    {g : β → Except SyntaxFault δ} (first : ReadAlike r x y)
    (next : ∀ a b, r a b → ReadAlike r' (f a) (g b)) : ReadAlike r' (x >>= f) (y >>= g) := by
  cases first with
  | ok related => exact next _ _ related
  | error alike => exact .error alike

def SameAndLeft {α : Type} (found found' : α × List Token) : Prop :=
  found'.1 = found.1 ∧ List.Forall₂ Token.Alike found.2 found'.2

/-- A reader that goes on from a result with the tokens left. -/
theorem ReadAlike.andThen {α β : Type} {r : β → β → Prop}
    {x y : Except SyntaxFault (α × List Token)} {f : α × List Token → Except SyntaxFault β}
    (first : ReadAlike SameAndLeft x y)
    (next : ∀ a rest rest', List.Forall₂ Token.Alike rest rest' →
      ReadAlike r (f (a, rest)) (f (a, rest'))) : ReadAlike r (x >>= f) (y >>= f) := by
  refine first.bind ?_
  rintro ⟨_, rest⟩ ⟨a, rest'⟩ ⟨rfl, left⟩
  exact next a rest rest' left

theorem ReadAlike.map {α β : Type} {x y : Except SyntaxFault (α × List Token)} (f : α → β)
    (first : ReadAlike SameAndLeft x y) :
    ReadAlike SameAndLeft (x >>= fun found => .ok (f found.1, found.2))
      (y >>= fun found => .ok (f found.1, found.2)) :=
  first.andThen fun _ _ _ left => .ok ⟨rfl, left⟩

namespace Expr

variable {t t' : Token} {ts ts' : List Token}

theorem operand_alike (alike : t.Alike t') : ReadAlike (· = ·) (operand t) (operand t') := by
  have same : ofToken? t' = ofToken? t := by
    rw [ofToken?, ofToken?, alike.1, alike.2]
  rw [operand, operand, same]
  cases ofToken? t with
  | some e => exact .ok rfl
  | none => exact .error (.token alike .operand)

theorem readOperand_alike (alike : List.Forall₂ Token.Alike ts ts') :
    ReadAlike SameAndLeft (readOperand ts) (readOperand ts') := by
  cases alike with
  | nil => exact .error (.atEnd .operand)
  | cons here later =>
    refine (operand_alike here).bind ?_
    rintro e _ rfl
    exact .ok ⟨rfl, later⟩

theorem readSteps_alike (object : Expr) (alike : List.Forall₂ Token.Alike ts ts') :
    ReadAlike SameAndLeft (readSteps object ts) (readSteps object ts') := by
  induction object, ts using readSteps.induct generalizing ts' with
  | case1 object =>
    cases alike
    exact .ok ⟨rfl, .nil⟩
  | case2 object dot isDot =>
    obtain _ | ⟨same, ⟨⟩⟩ := alike
    simp only [readSteps, isDot, same.1, if_true]
    exact .error (.atEnd _)
  | case3 object dot isDot name rest isName ih =>
    obtain _ | ⟨same, _ | ⟨sameName, later⟩⟩ := alike
    simp only [readSteps, isDot, same.1, isName, sameName.1, sameName.2, if_true]
    exact ih later
  | case4 object dot isDot name rest notName =>
    obtain _ | ⟨same, _ | ⟨sameName, later⟩⟩ := alike
    simp only [readSteps, isDot, same.1, notName, sameName.1, if_true, if_false]
    exact .error (.token sameName _)
  | case5 object t rest notDot =>
    obtain _ | ⟨same, later⟩ := alike
    rw [readSteps.eq_def, readSteps.eq_def]
    simp only [notDot, same.1, if_false]
    exact .ok ⟨rfl, .cons same later⟩

theorem readArgumentsAfter_alike (alike : List.Forall₂ Token.Alike ts ts') :
    ReadAlike SameAndLeft (readArgumentsAfter ts) (readArgumentsAfter ts') := by
  induction ts using readArgumentsAfter.induct generalizing ts' with
  | case1 =>
    cases alike
    exact .error (.atEnd _)
  | case2 t rest isClose =>
    obtain _ | ⟨same, later⟩ := alike
    rw [readArgumentsAfter.eq_def, readArgumentsAfter.eq_def]
    simp only [isClose, same.1, if_true]
    exact .ok ⟨rfl, later⟩
  | case3 t notClose isComma =>
    obtain _ | ⟨same, ⟨⟩⟩ := alike
    simp only [readArgumentsAfter, isComma, same.1, reduceCtorEq, if_false, if_true]
    exact .error (.atEnd _)
  | case4 t notClose isComma next rest ih =>
    obtain _ | ⟨same, _ | ⟨sameNext, later⟩⟩ := alike
    simp only [readArgumentsAfter, isComma, same.1, reduceCtorEq, if_false, if_true]
    refine (operand_alike sameNext).bind ?_
    rintro e _ rfl
    exact (ih later).map (e :: ·)
  | case5 t rest notClose notComma =>
    obtain _ | ⟨same, later⟩ := alike
    rw [readArgumentsAfter.eq_def, readArgumentsAfter.eq_def]
    simp only [notClose, notComma, same.1, if_false]
    exact .error (.token same _)

theorem readArguments_alike (alike : List.Forall₂ Token.Alike ts ts') :
    ReadAlike SameAndLeft (readArguments ts) (readArguments ts') := by
  cases alike with
  | nil => exact .error (.atEnd _)
  | @cons t t' ts ts' same later =>
    rw [readArguments, readArguments, same.1]
    split
    · exact .ok ⟨rfl, later⟩
    · refine (operand_alike same).bind ?_
      rintro e _ rfl
      exact (readArgumentsAfter_alike later).map (e :: ·)

theorem readCall_alike (callee : Expr) (alike : List.Forall₂ Token.Alike ts ts') :
    ReadAlike SameAndLeft (readCall callee ts) (readCall callee ts') := by
  cases alike with
  | nil => exact .ok ⟨rfl, .nil⟩
  | @cons t t' ts ts' same later =>
    rw [readCall, readCall, same.1]
    split
    · exact (readArguments_alike later).map (Expr.call callee)
    · exact .ok ⟨rfl, .cons same later⟩

theorem readComparison_alike (left : Expr) (alike : List.Forall₂ Token.Alike ts ts') :
    ReadAlike SameAndLeft (readComparison left ts) (readComparison left ts') := by
  cases alike with
  | nil => exact .ok ⟨rfl, .nil⟩
  | @cons t t' ts ts' same later =>
    rw [readComparison, readComparison, same.1]
    cases operator? t.kind with
    | none => exact .ok ⟨rfl, .cons same later⟩
    | some operator => exact (readOperand_alike later).map (Expr.comparison operator left)

theorem readExpression_alike (alike : List.Forall₂ Token.Alike ts ts') :
    ReadAlike SameAndLeft (readExpression ts) (readExpression ts') := by
  rw [readExpression, readExpression]
  refine (readOperand_alike alike).andThen fun first _ _ left => ?_
  refine (readSteps_alike first left).andThen fun stepped _ _ left => ?_
  refine (readCall_alike stepped left).andThen fun called _ _ left => ?_
  exact readComparison_alike called left

theorem ofTokens_alike (alike : List.Forall₂ Token.Alike ts ts') :
    ReadAlike (· = ·) (ofTokens ts) (ofTokens ts') := by
  refine (readExpression_alike alike).andThen fun e _ _ left => ?_
  cases left with
  | nil => exact .ok rfl
  | cons same later => exact .error (.token same _)

/-- Texts whose scans find tokens that are alike are read as the same tree, or with the same words
as no expression. -/
theorem parse_alike {source source' : String} (scanned : scan source = ⟨ts, none⟩)
    (scanned' : scan source' = ⟨ts', none⟩) (alike : List.Forall₂ Token.Alike ts ts') :
    (∃ e, parse source = .ok e ∧ parse source' = .ok e) ∨
      ∃ fault fault', parse source = .error (.malformed fault source) ∧
        parse source' = .error (.malformed fault' source') ∧ fault'.text = fault.text := by
  have read := ofTokens_alike alike
  simp only [parse, scanned, scanned']
  generalize ofTokens ts = x at *
  generalize ofTokens ts' = y at *
  cases read with
  | @ok e _ same =>
    cases same
    exact .inl ⟨e, rfl, rfl⟩
  | @error fault fault' alike =>
    refine .inr ⟨fault, fault', ?_, ?_, alike.text⟩
    · cases alike <;> rfl
    · cases alike <;> rfl

end Expr

/-- The tokens of a text, written again with other blanks, are scanned as the same tokens but for
their offsets, and are the same tree, or no expression with the same words for what is wrong. -/
theorem spacing_irrelevant {source source' : String} {ts : List Token}
    (tokens : tokenize source = .ok ts) (spaced : Spaced ts source'.toList) :
    (∃ ts', tokenize source' = .ok ts' ∧ List.Forall₂ Token.Alike ts ts') ∧
    ((∃ e, Expr.parse source = .ok e ∧ Expr.parse source' = .ok e) ∨
      ∃ fault fault', Expr.parse source = .error (.malformed fault source) ∧
        Expr.parse source' = .error (.malformed fault' source') ∧ fault'.text = fault.text) := by
  have layout := tokenize_eq_ok.1 tokens
  obtain ⟨ts', layout', alike⟩ := spaced.layout layout.spelling 0
  exact ⟨⟨ts', tokenize_eq_ok.2 layout', alike⟩,
    Expr.parse_alike (scan_eq_layout.2 layout) (scan_eq_layout.2 layout') alike⟩

/-- Three tokens, the last with blanks of its own, apart by a space and a line end and between two
blanks that are not ASCII. -/
theorem spacing_irrelevant_wide :
    Expr.parse "\u2003$a ==\n'x  y'\u00A0" = Expr.parse "$a=='x  y'" := by
  have scanned : scan "$a=='x  y'" =
      ⟨[⟨.variable, "$a", 0⟩, ⟨.equality, "==", 2⟩, ⟨.string, "'x  y'", 4⟩], none⟩ := by
    decide +kernel
  have none : ∀ c ∈ ([] : List Char), isBlank c = true := by simp
  have one : ∀ c, isBlank c = true → ∀ d ∈ [c], isBlank d = true := by simp
  have last : Spaced [⟨.string, "'x  y'", 4⟩] ([] ++ "'x  y'".toList ++ ['\u00A0']) :=
    .last none (one _ rfl)
  have later : Spaced [⟨.equality, "==", 2⟩, ⟨.string, "'x  y'", 4⟩]
      ([] ++ "==".toList ++ (['\n'] ++ ([] ++ "'x  y'".toList ++ ['\u00A0']))) :=
    .further none (one _ rfl) (List.cons_ne_nil _ _) last
  have spaced : Spaced [⟨.variable, "$a", 0⟩, ⟨.equality, "==", 2⟩, ⟨.string, "'x  y'", 4⟩]
      "\u2003$a ==\n'x  y'\u00A0".toList := by
    show Spaced _ (['\u2003'] ++ "$a".toList ++ ([' '] ++ ([] ++ "==".toList ++
      (['\n'] ++ ([] ++ "'x  y'".toList ++ ['\u00A0'])))))
    exact .further (one _ rfl) (one _ rfl) (List.cons_ne_nil _ _) later
  obtain ⟨-, ⟨e, read, read'⟩ | ⟨_, -, read, -⟩⟩ :=
    spacing_irrelevant (tokenize_eq_ok.2 (scan_eq_layout.1 scanned)) spaced
  · rw [read, read']
  · simp only [Expr.parse, scanned] at read
    cases read

end Gatekeeper
