import Gatekeeper.Proofs.Expr.Grammar

/-!
# Every sentence is read

The converse of the soundness of reading, one lemma a reader: what stands for a tree is consumed
and gives this tree, whatever follows that cannot belong to it.
-/

set_option autoImplicit false

namespace Gatekeeper.Grammar
open Gatekeeper.Expr

variable {t : Token} {ts rest : List Token} {e : Expr} {es : List Expr}

def Lacks (kind : TokenKind) (rest : List Token) : Prop := ∀ t ∈ rest.head?, t.kind ≠ kind

theorem readOperand_complete (here : Operand t e) (rest : List Token) :
    readOperand (t :: rest) = .ok (e, rest) := by
  rw [readOperand, operand_eq_ok.2 here]
  rfl

theorem readPath_complete (path : Path ts e) (rest : List Token) :
    (readOperand (ts ++ rest) >>= fun read => readSteps read.1 read.2) = readSteps e rest := by
  induction path generalizing rest with
  | operand here => rw [List.singleton_append, readOperand_complete here rest]; rfl
  | @step ts object dot name before isDot isName ih =>
    rw [List.append_assoc, List.cons_append, List.singleton_append, ih]
    simp only [readSteps, isDot, isName, if_true]

theorem readSteps_end (object : Expr) (stop : Lacks .dot rest) :
    readSteps object rest = .ok (object, rest) := by
  cases rest with
  | nil => rfl
  | cons t rest =>
    rw [readSteps.eq_def]
    simp only [stop t rfl, if_false]

theorem Operand.kind_ne {kind : TokenKind} (here : Operand t e)
    (other : kind ∉ [TokenKind.variable, .identifier, .number, .string]) : t.kind ≠ kind := by
  rintro rfl
  cases here <;> simp_all

theorem readArgumentsAfter_close {closing : Token} (isClose : closing.kind = .closeParen) :
    readArgumentsAfter (closing :: rest) = .ok ([], rest) := by
  rw [readArgumentsAfter.eq_def]
  simp only [isClose, if_true]

theorem readArgumentsAfter_more {comma : Token} {tail : List Token} (isComma : comma.kind = .comma)
    (here : Operand t e) (later : readArgumentsAfter tail = .ok (es, rest)) :
    readArgumentsAfter (comma :: t :: tail) = .ok (e :: es, rest) := by
  simp only [readArgumentsAfter, isComma, operand_eq_ok.2 here, reduceCtorEq, if_false, if_true]
  show (readArgumentsAfter tail >>= _) = _
  rw [later]
  rfl

theorem readArgumentsAfter_complete {comma closing : Token} (inside : Arguments ts es)
    (isComma : comma.kind = .comma) (isClose : closing.kind = .closeParen) :
    readArgumentsAfter (comma :: ts ++ closing :: rest) = .ok (es, rest) := by
  induction inside generalizing comma with
  | last here => exact readArgumentsAfter_more isComma here (readArgumentsAfter_close isClose)
  | more here isComma' after ih => exact readArgumentsAfter_more isComma here (ih isComma')

theorem readArguments_first {tail : List Token} (here : Operand t e)
    (later : readArgumentsAfter tail = .ok (es, rest)) :
    readArguments (t :: tail) = .ok (e :: es, rest) := by
  have other : t.kind ≠ .closeParen := here.kind_ne (by decide)
  rw [readArguments, if_neg other, operand_eq_ok.2 here]
  show (readArgumentsAfter tail >>= _) = _
  rw [later]
  rfl

theorem readArguments_complete {closing : Token}
    (inside : (ts = [] ∧ es = []) ∨ Arguments ts es) (isClose : closing.kind = .closeParen)
    (rest : List Token) : readArguments (ts ++ closing :: rest) = .ok (es, rest) := by
  rcases inside with ⟨rfl, rfl⟩ | inside
  · rw [List.nil_append, readArguments, if_pos isClose]
  · cases inside with
    | last here => exact readArguments_first here (readArgumentsAfter_close isClose)
    | more here isComma after =>
      exact readArguments_first here (readArgumentsAfter_complete after isComma isClose)

theorem readCall_end (callee : Expr) (stop : Lacks .openParen rest) :
    readCall callee rest = .ok (callee, rest) := by
  cases rest with
  | nil => rfl
  | cons t rest => rw [readCall, if_neg (stop t rfl)]

/-- Reading begins with a path, then looks for arguments, then for a comparison. -/
theorem readExpression_eq (tokens : List Token) : readExpression tokens =
    ((readOperand tokens >>= fun read => readSteps read.1 read.2) >>= fun stepped =>
      readCall stepped.1 stepped.2 >>= fun called => readComparison called.1 called.2) := by
  rw [readExpression]
  cases readOperand tokens <;> rfl

theorem readCalled_complete (called : Called ts e) (noStep : Lacks .dot rest)
    (noCall : Lacks .openParen rest) :
    readExpression (ts ++ rest) = readComparison e rest := by
  rw [readExpression_eq]
  cases called with
  | path path =>
    rw [readPath_complete path rest, readSteps_end e noStep]
    show (readCall e rest >>= _) = _
    rw [readCall_end e noCall]
    rfl
  | @call ts args callee es opening closing path isOpen inside isClose =>
    have stop : Lacks .dot (opening :: args ++ [closing] ++ rest) := by
      rintro t ⟨⟩
      simp [isOpen]
    have call : readCall callee (opening :: args ++ [closing] ++ rest) =
        .ok (.call callee es, rest) := by
      have arguments := readArguments_complete inside isClose rest
      rw [show opening :: args ++ [closing] ++ rest = opening :: (args ++ closing :: rest) by simp,
        readCall, if_pos isOpen, arguments]
      rfl
    rw [show ts ++ opening :: args ++ [closing] ++ rest =
      ts ++ (opening :: args ++ [closing] ++ rest) by simp, readPath_complete path,
      readSteps_end callee stop]
    show (readCall callee (opening :: args ++ [closing] ++ rest) >>= _) = _
    rw [call]
    rfl

theorem readExpression_complete (sentence : Sentence ts e) :
    readExpression ts = .ok (e, []) := by
  cases sentence with
  | called here =>
    have whole : readExpression (ts ++ []) = readComparison e [] :=
      readCalled_complete here nofun nofun
    rwa [List.append_nil] at whole
  | @comparison ts sign t operator left right before isSign after =>
    have noStep : Lacks .dot [sign, t] := by
      rintro _ ⟨⟩ isDot
      simp [isDot, operator?] at isSign
    have noCall : Lacks .openParen [sign, t] := by
      rintro _ ⟨⟩ isOpen
      simp [isOpen, operator?] at isSign
    rw [readCalled_complete before noStep noCall, readComparison, isSign]
    show (readOperand [t] >>= _) = _
    rw [readOperand_complete after]
    rfl

theorem ofTokens_eq_ok : ofTokens ts = .ok e ↔ Sentence ts e := by
  constructor
  · exact ofTokens_sound
  · intro sentence
    rw [ofTokens, readExpression_complete sentence]
    rfl

theorem parse_eq_ok_iff {source : String} :
    parse source = .ok e ↔ ∃ tokens, scan source = ⟨tokens, none⟩ ∧ Sentence tokens e := by
  constructor
  · intro h
    obtain ⟨faultless, sentence⟩ := parse_sound h
    refine ⟨_, ?_, sentence⟩
    rw [← faultless]
  · rintro ⟨tokens, scanned, sentence⟩
    simp only [parse, scanned, ofTokens_eq_ok.2 sentence]

end Gatekeeper.Grammar
