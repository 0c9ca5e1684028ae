import Gatekeeper.Proofs.Expr.Derivation
import Gatekeeper.Proofs.Expr.Lookahead
import Gatekeeper.Proofs.Token.Fault
import Gatekeeper.Proofs.Workflow.WellFormed

/-!
# What can still become an expression

A reader that has run out of tokens has rejected none of them: what it has read is the beginning of
a sentence. A reader that has rejected a token rejects it whatever follows. So of the two errors
that a text may have, a character without a token and a token out of place, the first is reported
exactly if the tokens before the character begin a sentence.
-/

set_option autoImplicit false

namespace Gatekeeper.Grammar
open Gatekeeper.Expr

def Viable (ts : List Token) : Prop := ∃ d : Derivation, ts <+: d.leaves

theorem Viable.of_prefix {part ts : List Token} (viable : Viable ts) (within : part <+: ts) :
    Viable part := by
  obtain ⟨d, begins⟩ := viable
  exact ⟨d, within.trans begins⟩

/-- What a reader may make of tokens that more tokens can follow: it is done whatever they are, it
stops at the end, it refuses a token whatever follows, or it asks for tokens that can be given. -/
inductive Incremental {α : Type} (read : List Token → Except SyntaxFault (α × List Token))
    (ts : List Token) : Prop
  | done (a : α) (rest : List Token) (finishes : ∀ more, read (ts ++ more) = .ok (a, rest ++ more))
  | stopped (a : α) (stops : read ts = .ok (a, []))
  | refused (t : Token) (expected : Expected)
      (refuses : ∀ more, read (ts ++ more) = .error (.unexpectedToken t expected))
  | missing (expected : Expected) (more : List Token) (a : α)
      (wants : read ts = .error (.unexpectedEnd expected)) (spelled : Spelled more)
      (gets : read (ts ++ more) = .ok (a, []))

namespace Incremental

variable {α β : Type} {read : List Token → Except SyntaxFault (α × List Token)} {ts : List Token}

/-- Tokens that only decide by which reader the others are read. -/
theorem passed {read' : List Token → Except SyntaxFault (α × List Token)} {later : List Token}
    (passes : ∀ more, read (ts ++ more) = read' (later ++ more)) (h : Incremental read' later) :
    Incremental read ts := by
  have alone : read ts = read' later := by simpa using passes []
  cases h with
  | done a rest finishes => exact .done a rest fun more => (passes more).trans (finishes more)
  | stopped a stops => exact .stopped a (alone.trans stops)
  | refused t expected refuses =>
    exact .refused t expected fun more => (passes more).trans (refuses more)
  | missing expected more a wants spelled gets =>
    exact .missing expected more a (alone.trans wants) spelled ((passes more).trans gets)

/-- Two readers in a row, where the second is content with nothing. -/
theorem bind {next : α → List Token → Except SyntaxFault (β × List Token)}
    (first : Incremental read ts) (second : ∀ a rest, Incremental (next a) rest)
    (content : ∀ a, ∃ b, next a [] = .ok (b, [])) :
    Incremental (fun ts => read ts >>= fun found => next found.1 found.2) ts := by
  cases first with
  | done a rest finishes => exact (second a rest).passed fun more => by rw [finishes]; rfl
  | stopped a stops =>
    obtain ⟨b, nothing⟩ := content a
    exact .stopped b (by rw [stops]; exact nothing)
  | refused t expected refuses => exact .refused t expected fun more => by rw [refuses]; rfl
  | missing expected more a wants spelled gets =>
    obtain ⟨b, nothing⟩ := content a
    exact .missing expected more b (by rw [wants]; rfl) spelled (by rw [gets]; exact nothing)

theorem map (f : α → β) (h : Incremental read ts) :
    Incremental (fun ts => read ts >>= fun found => .ok (f found.1, found.2)) ts := by
  have hands : ∀ a rest, Incremental (fun ts => .ok (f a, ts)) rest :=
    fun a rest => .done (f a) rest fun _ => rfl
  exact h.bind hands fun a => ⟨f a, rfl⟩

end Incremental

/-! ## The readers -/

variable {t : Token} {ts : List Token} {e : Expr}

theorem operand_cases (t : Token) :
    (∃ e, operand t = .ok e) ∨ operand t = .error (.unexpectedToken t .operand) := by
  unfold operand
  split
  · exact .inl ⟨_, rfl⟩
  · exact .inr rfl

def anyName : Token := ⟨.identifier, "x", 0⟩

def anyClose : Token := ⟨.closeParen, ")", 0⟩

theorem anyName_spelled : Spelled [anyName] := by
  intro t ht
  rw [List.mem_singleton.1 ht]
  exact .identifier rfl rfl (by simp)

theorem anyClose_spelled : Spelled [anyClose] := by
  intro t ht
  rw [List.mem_singleton.1 ht]
  exact .closeParen

theorem Spelled.append {xs ys : List Token} (first : Spelled xs) (later : Spelled ys) :
    Spelled (xs ++ ys) := fun t ht => (List.mem_append.1 ht).elim (first t) (later t)

theorem readOperand_incremental (ts : List Token) : Incremental readOperand ts := by
  cases ts with
  | nil => exact .missing .operand [anyName] (.identifier "x") rfl anyName_spelled rfl
  | cons t rest =>
    rcases operand_cases t with ⟨e, here⟩ | wrong
    · exact .done e rest fun more => by rw [List.cons_append, readOperand, here]; rfl
    · exact .refused t .operand fun more => by rw [List.cons_append, readOperand, wrong]; rfl

theorem readSteps_incremental (object : Expr) (ts : List Token) :
    Incremental (readSteps object) ts := by
  induction object, ts using readSteps.induct with
  | case1 object => exact .stopped object rfl
  | case2 object dot isDot =>
    have wants : readSteps object [dot] = .error (.unexpectedEnd (.token .identifier)) := by
      simp [readSteps, isDot]
    have gets : readSteps object [dot, anyName] = .ok (.member object (.identifier "x"), []) := by
      simp [readSteps, isDot, anyName]
    exact .missing _ [anyName] _ wants anyName_spelled gets
  | case3 object dot isDot name rest isName ih =>
    exact ih.passed fun more => by simp [readSteps, isDot, isName]
  | case4 object dot isDot name rest notName =>
    exact .refused name (.token .identifier) fun more => by simp [readSteps, isDot, notName]
  | case5 object t rest notDot =>
    refine .done object (t :: rest) fun more => readSteps_end object ?_
    rintro _ ⟨⟩
    exact notDot

/-- Tokens that lead to an argument, the argument, and what follows it. -/
theorem argument_incremental {read : List Token → Except SyntaxFault (List Expr × List Token)}
    {rest : List Token} (used : List Token) (t : Token)
    (leads : ∀ more, read (used ++ t :: more) = operand t >>= fun e =>
      readArgumentsAfter more >>= fun later => .ok (e :: later.1, later.2))
    (after : Incremental readArgumentsAfter rest) : Incremental read (used ++ t :: rest) := by
  rcases operand_cases t with ⟨e, here⟩ | wrong
  · refine (after.map (e :: ·)).passed fun more => ?_
    rw [List.append_assoc, List.cons_append, leads, here]
    rfl
  · refine .refused t .operand fun more => ?_
    rw [List.append_assoc, List.cons_append, leads, wrong]
    rfl

theorem readArgumentsAfter_incremental (ts : List Token) :
    Incremental readArgumentsAfter ts := by
  induction ts using readArgumentsAfter.induct with
  | case1 =>
    exact .missing (.token .closeParen) [anyClose] [] rfl anyClose_spelled
      (readArgumentsAfter_close rfl)
  | case2 t rest isClose => exact .done [] rest fun more => readArgumentsAfter_close isClose
  | case3 t notClose isComma =>
    have wants : readArgumentsAfter [t] = .error (.unexpectedEnd .operand) := by
      simp [readArgumentsAfter, isComma]
    have gets : readArgumentsAfter [t, anyName, anyClose] = .ok ([.identifier "x"], []) :=
      readArgumentsAfter_more isComma (.identifier rfl) (readArgumentsAfter_close rfl)
    exact .missing _ ([anyName] ++ [anyClose]) _ wants
      (anyName_spelled.append anyClose_spelled) gets
  | case4 comma notClose isComma t rest ih =>
    refine argument_incremental [comma] t (fun more => ?_) ih
    simp only [List.cons_append, List.nil_append, readArgumentsAfter, isComma, reduceCtorEq,
      if_false, if_true]
    rfl
  | case5 t rest notClose notComma =>
    refine .refused t (.token .closeParen) fun more => ?_
    rw [List.cons_append, readArgumentsAfter.eq_def]
    simp only [notClose, notComma, if_false]

theorem readArguments_incremental (ts : List Token) : Incremental readArguments ts := by
  cases ts with
  | nil => exact .missing .operand [anyClose] [] rfl anyClose_spelled rfl
  | cons t rest =>
    by_cases isClose : t.kind = .closeParen
    · exact .done [] rest fun more => by rw [List.cons_append, readArguments, if_pos isClose]
    · refine argument_incremental [] t (fun more => ?_)
        (readArgumentsAfter_incremental rest)
      rw [List.nil_append, readArguments, if_neg isClose]
      rfl

theorem readCall_incremental (callee : Expr) (ts : List Token) :
    Incremental (readCall callee) ts := by
  cases ts with
  | nil => exact .stopped callee rfl
  | cons t rest =>
    by_cases isOpen : t.kind = .openParen
    · refine ((readArguments_incremental rest).map (.call callee)).passed fun more => ?_
      rw [List.cons_append, readCall, if_pos isOpen]
      rfl
    · refine .done callee (t :: rest) fun more => readCall_end callee ?_
      rintro _ ⟨⟩
      exact isOpen

theorem readComparison_incremental (left : Expr) (ts : List Token) :
    Incremental (readComparison left) ts := by
  cases ts with
  | nil => exact .stopped left rfl
  | cons t rest =>
    cases isSign : operator? t.kind with
    | none =>
      refine .done left (t :: rest) fun more => ?_
      rw [List.cons_append, readComparison, isSign]
    | some operator =>
      refine ((readOperand_incremental rest).map (.comparison operator left)).passed fun more => ?_
      rw [List.cons_append, readComparison, isSign]
      rfl

theorem readExpression_incremental (ts : List Token) : Incremental readExpression ts := by
  have path := (readOperand_incremental ts).bind readSteps_incremental fun e => ⟨e, rfl⟩
  have called := path.bind readCall_incremental fun e => ⟨e, rfl⟩
  have whole := called.bind readComparison_incremental fun e => ⟨e, rfl⟩
  refine whole.passed fun more => ?_
  rw [readExpression_eq, ← bind_assoc]

/-- An error is either for the end of the tokens, and can be mended behind it, or it stays. -/
theorem ofTokens_error {fault : SyntaxFault} (h : ofTokens ts = .error fault) :
    ((∃ expected, fault = .unexpectedEnd expected) ∧
      ∃ more e, Spelled more ∧ ofTokens (ts ++ more) = .ok e) ∨
    ((∀ expected, fault ≠ .unexpectedEnd expected) ∧
      ∀ more, ofTokens (ts ++ more) = .error fault) := by
  cases readExpression_incremental ts with
  | done e rest finishes =>
    have alone := finishes []
    rw [List.append_nil, List.append_nil] at alone
    cases rest with
    | nil =>
      rw [ofTokens, alone] at h
      cases h
    | cons t rest =>
      rw [ofTokens, alone] at h
      cases h
      exact .inr ⟨by simp, fun more => by rw [ofTokens, finishes]; rfl⟩
  | stopped e stops =>
    rw [ofTokens, stops] at h
    cases h
  | refused t expected refuses =>
    have alone := refuses []
    rw [List.append_nil] at alone
    rw [ofTokens, alone] at h
    cases h
    exact .inr ⟨by simp, fun more => by rw [ofTokens, refuses]; rfl⟩
  | missing expected more e wants spelled gets =>
    rw [ofTokens, wants] at h
    cases h
    exact .inl ⟨⟨expected, rfl⟩, more, e, spelled, by rw [ofTokens, gets]; rfl⟩

/-- The beginnings of expressions are what is read without a token being refused. -/
theorem viable_iff (spelled : Spelled ts) :
    Viable ts ↔
      ∀ fault, ofTokens ts = .error fault → ∃ expected, fault = .unexpectedEnd expected := by
  constructor
  · rintro ⟨d, more, leaves⟩ fault h
    rcases ofTokens_error h with ⟨atEnd, -⟩ | ⟨-, stays⟩
    · exact atEnd
    · have whole := ofTokens_eq_ok.2 d.sentence
      rw [← leaves, stays more] at whole
      cases whole
  · intro notRefused
    obtain ⟨more, e, spelled', read⟩ : ∃ more e, Spelled more ∧ ofTokens (ts ++ more) = .ok e := by
      cases h : ofTokens ts with
      | ok e => exact ⟨[], e, by simp [Spelled], by simpa using h⟩
      | error fault =>
        rcases ofTokens_error h with ⟨-, mended⟩ | ⟨other, -⟩
        · exact mended
        · obtain ⟨expected, atEnd⟩ := notRefused fault h
          exact absurd atEnd (other expected)
    obtain ⟨d, leaves, -⟩ := (ofTokens_eq_ok.1 read).derivation (spelled.append spelled')
    exact ⟨d, more, leaves.symm⟩

/-! ## The error of a text -/

theorem scan_spelled (source : String) : Spelled (scan source).tokens := by
  generalize found : scan source = scanned
  obtain ⟨tokens, fault⟩ := scanned
  cases fault with
  | none => exact (scan_eq_layout.1 found).spelling
  | some fault =>
    obtain ⟨before, after, -, layout, -, -⟩ := scan_eq_stuck.1 found
    exact layout.spelling

theorem parse_eq_lexical {source : String} {fault : LexicalFault} :
    parse source = .error (.lexical fault) ↔
      ∃ tokens, scan source = ⟨tokens, some fault⟩ ∧ Viable tokens := by
  have spelled := scan_spelled source
  rw [parse]
  generalize scan source = scanned at spelled ⊢
  obtain ⟨tokens, faulty⟩ := scanned
  simp only [Scan.mk.injEq, and_assoc, exists_eq_left', viable_iff spelled]
  cases ofTokens tokens with
  | ok e => cases faulty <;> simp
  | error syntaxFault => cases syntaxFault <;> cases faulty <;> simp

/-- A text that is no expression has one of two errors. A character without a token is reported if
and only if the tokens before it begin a sentence, so never behind a token that no sentence goes on
with, and always behind a whole sentence. What is reported otherwise holds the text as it is. A
reader that pulls its tokens one at a time reports the same. -/
theorem parse_error_viable (source : String) :
    pulled source = parse source ∧
    (∀ fault, parse source = .error (.lexical fault) ↔
      ∃ tokens, scan source = ⟨tokens, some fault⟩ ∧ Viable tokens) ∧
    (∀ e, parse source = .error e → (∀ fault, e ≠ .lexical fault) →
      ∃ fault, e = .malformed fault source) ∧
    (∀ tokens fault part, scan source = ⟨tokens, some fault⟩ → part <+: tokens → ¬ Viable part →
      ∃ fault, parse source = .error (.malformed fault source)) ∧
    ∀ (d : Derivation) fault, scan source = ⟨d.leaves, some fault⟩ →
      parse source = .error (.lexical fault) := by
  have others : ∀ e, parse source = .error e → (∀ fault, e ≠ .lexical fault) →
      ∃ fault, e = .malformed fault source := by
    intro e h other
    rcases parse_eq_error h with ⟨fault, lexical⟩ | malformed
    · exact absurd lexical (other fault)
    · exact malformed
  refine ⟨pulled_eq_parse source, fun fault => parse_eq_lexical, others, ?_, ?_⟩
  · intro tokens fault part scanned within unviable
    have noLexical : ∀ fault', parse source ≠ .error (.lexical fault') := by
      intro fault' h
      obtain ⟨tokens', scanned', viable⟩ := parse_eq_lexical.1 h
      obtain ⟨rfl, -⟩ := Scan.mk.inj (scanned.symm.trans scanned')
      exact unviable (viable.of_prefix within)
    cases h : parse source with
    | ok e =>
      obtain ⟨_, faultless, -⟩ := parse_eq_ok_iff.1 h
      rw [scanned] at faultless
      cases faultless
    | error e =>
      obtain ⟨syntaxFault, rfl⟩ := others e h fun fault' lexical =>
        noLexical fault' (h.trans (by rw [lexical]))
      exact ⟨syntaxFault, rfl⟩
  · intro d fault scanned
    exact parse_eq_lexical.2 ⟨_, scanned, d, List.prefix_rfl⟩

example : parse "in($a @" = .error (.lexical ⟨'@', 6⟩) := by cbv

example : parse "in(, @" =
    .error (.malformed (.unexpectedToken ⟨.comma, ",", 3⟩ .operand) "in(, @") := by cbv

end Gatekeeper.Grammar
