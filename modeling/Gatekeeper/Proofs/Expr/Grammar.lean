import Gatekeeper.Expr.Parse
import Gatekeeper.Proofs.Outcome

/-!
# The grammar of expressions

Which token sequences are expressions, each with the tree it stands for. The relations say nothing
about reading; that every tree the reader returns stands for the tokens it has consumed is proved
here, one lemma a reader. A path grows at its right end, as its tree does at the root.
-/

set_option autoImplicit false

namespace Gatekeeper.Grammar
open Gatekeeper.Expr

inductive Operand : Token → Expr → Prop
  | variable {t : Token} (kind : t.kind = .variable) : Operand t (.variable (unsigiled t.text))
  | identifier {t : Token} (kind : t.kind = .identifier) : Operand t (.identifier t.text)
  | number {t : Token} (kind : t.kind = .number) : Operand t (.number (Number.ofDigits t.text))
  | string {t : Token} (kind : t.kind = .string) : Operand t (.string (unquoted t.text))

inductive Path : List Token → Expr → Prop
  | operand {t : Token} {e : Expr} (here : Operand t e) : Path [t] e
  | step {ts : List Token} {object : Expr} {dot name : Token} (before : Path ts object)
      (isDot : dot.kind = .dot) (isName : name.kind = .identifier) :
      Path (ts ++ [dot, name]) (.member object (.identifier name.text))

inductive Arguments : List Token → List Expr → Prop
  | last {t : Token} {e : Expr} (here : Operand t e) : Arguments [t] [e]
  | more {t comma : Token} {e : Expr} {ts : List Token} {es : List Expr} (here : Operand t e)
      (isComma : comma.kind = .comma) (after : Arguments ts es) :
      Arguments (t :: comma :: ts) (e :: es)

inductive Called : List Token → Expr → Prop
  | path {ts : List Token} {e : Expr} (here : Path ts e) : Called ts e
  | call {ts args : List Token} {callee : Expr} {es : List Expr} {opening closing : Token}
      (before : Path ts callee) (isOpen : opening.kind = .openParen)
      (inside : (args = [] ∧ es = []) ∨ Arguments args es) (isClose : closing.kind = .closeParen) :
      Called (ts ++ opening :: args ++ [closing]) (.call callee es)

inductive Sentence : List Token → Expr → Prop
  | called {ts : List Token} {e : Expr} (here : Called ts e) : Sentence ts e
  | comparison {ts : List Token} {sign t : Token} {operator : Operator} {left right : Expr}
      (before : Called ts left) (isSign : operator? sign.kind = some operator)
      (after : Operand t right) : Sentence (ts ++ [sign, t]) (.comparison operator left right)

theorem ofToken?_eq_some {t : Token} {e : Expr} : ofToken? t = some e ↔ Operand t e := by
  constructor
  · intro h
    unfold ofToken? at h
    split at h
    · cases h
      exact .variable ‹_›
    · cases h
      exact .identifier ‹_›
    · cases h
      exact .number ‹_›
    · cases h
      exact .string ‹_›
    · cases h
  · intro h
    cases h <;> simp [ofToken?, *]

theorem operand_eq_ok {t : Token} {e : Expr} : operand t = .ok e ↔ Operand t e := by
  rw [← ofToken?_eq_some]
  unfold operand
  split <;> simp [*]

theorem readOperand_sound {tokens rest : List Token} {e : Expr}
    (h : readOperand tokens = .ok (e, rest)) : ∃ t, tokens = t :: rest ∧ Operand t e := by
  cases tokens with
  | nil => cases h
  | cons t tail =>
    simp only [readOperand, bind_eq_ok, pure_eq_ok, Prod.mk.injEq] at h
    obtain ⟨e, ht, rfl, rfl⟩ := h
    exact ⟨t, rfl, operand_eq_ok.1 ht⟩

theorem readSteps_sound {tokens rest before : List Token} {object e : Expr}
    (h : readSteps object tokens = .ok (e, rest)) (path : Path before object) :
    ∃ used, tokens = used ++ rest ∧ Path (before ++ used) e := by
  induction object, tokens using readSteps.induct generalizing before with
  | case1 object =>
    cases h
    exact ⟨[], rfl, by simpa using path⟩
  | case2 object dot isDot => simp [readSteps, isDot] at h
  | case3 object dot isDot name tail isName ih =>
    simp only [readSteps, isDot, isName, if_true] at h
    obtain ⟨used, rfl, whole⟩ := ih h (path.step isDot isName)
    exact ⟨dot :: name :: used, rfl, by simpa using whole⟩
  | case4 object dot isDot name tail notName => simp [readSteps, isDot, notName] at h
  | case5 object t tail notDot =>
    unfold readSteps at h
    simp only [notDot, if_false] at h
    cases h
    exact ⟨[], rfl, by simpa using path⟩

theorem readArgumentsAfter_sound {tokens rest : List Token} {es : List Expr}
    (h : readArgumentsAfter tokens = .ok (es, rest)) :
    ∃ used closing, tokens = used ++ closing :: rest ∧ closing.kind = .closeParen ∧
      ((used = [] ∧ es = []) ∨ ∃ comma args, used = comma :: args ∧ comma.kind = .comma ∧
        Arguments args es) := by
  induction tokens using readArgumentsAfter.induct generalizing es with
  | case1 => cases h
  | case2 t tail isClose =>
    unfold readArgumentsAfter at h
    simp only [isClose, if_true] at h
    cases h
    exact ⟨[], t, rfl, isClose, .inl ⟨rfl, rfl⟩⟩
  | case3 t notClose isComma => simp [readArgumentsAfter, isComma] at h
  | case4 t notClose isComma next tail ih =>
    simp only [readArgumentsAfter, isComma, reduceCtorEq, if_false, if_true, bind_eq_ok,
      pure_eq_ok, Prod.mk.injEq] at h
    obtain ⟨e, he, ⟨later, rest⟩, hlater, rfl, rfl⟩ := h
    have here := operand_eq_ok.1 he
    obtain ⟨used, closing, rfl, isClose, hused⟩ := ih hlater
    refine ⟨t :: next :: used, closing, rfl, isClose, .inr ⟨t, next :: used, rfl, isComma, ?_⟩⟩
    rcases hused with ⟨rfl, rfl⟩ | ⟨comma, args, rfl, isComma', inside⟩
    · exact .last here
    · exact .more here isComma' inside
  | case5 t tail notClose notComma =>
    unfold readArgumentsAfter at h
    simp [notClose, notComma] at h

theorem readArguments_sound {tokens rest : List Token} {es : List Expr}
    (h : readArguments tokens = .ok (es, rest)) :
    ∃ args closing, tokens = args ++ closing :: rest ∧ closing.kind = .closeParen ∧
      ((args = [] ∧ es = []) ∨ Arguments args es) := by
  cases tokens with
  | nil => cases h
  | cons t tail =>
    by_cases isClose : t.kind = .closeParen
    · simp only [readArguments, isClose, if_true] at h
      cases h
      exact ⟨[], t, rfl, isClose, .inl ⟨rfl, rfl⟩⟩
    · simp only [readArguments, isClose, if_false, bind_eq_ok, pure_eq_ok, Prod.mk.injEq] at h
      obtain ⟨e, he, ⟨later, rest⟩, hlater, rfl, rfl⟩ := h
      have here := operand_eq_ok.1 he
      obtain ⟨used, closing, rfl, isClose, hused⟩ := readArgumentsAfter_sound hlater
      refine ⟨t :: used, closing, rfl, isClose, .inr ?_⟩
      rcases hused with ⟨rfl, rfl⟩ | ⟨comma, args, rfl, isComma, inside⟩
      · exact .last here
      · exact .more here isComma inside

theorem readCall_sound {tokens rest before : List Token} {callee e : Expr}
    (h : readCall callee tokens = .ok (e, rest)) (path : Path before callee) :
    ∃ used, tokens = used ++ rest ∧ Called (before ++ used) e := by
  cases tokens with
  | nil =>
    cases h
    exact ⟨[], rfl, by simpa using Called.path path⟩
  | cons t tail =>
    by_cases isOpen : t.kind = .openParen
    · simp only [readCall, isOpen, if_true, bind_eq_ok, pure_eq_ok, Prod.mk.injEq] at h
      obtain ⟨⟨es, rest⟩, hes, rfl, rfl⟩ := h
      obtain ⟨args, closing, rfl, isClose, inside⟩ := readArguments_sound hes
      exact ⟨t :: args ++ [closing], by simp,
        by simpa using Called.call path isOpen inside isClose⟩
    · simp only [readCall, isOpen, if_false] at h
      cases h
      exact ⟨[], rfl, by simpa using Called.path path⟩

theorem readComparison_sound {tokens rest before : List Token} {left e : Expr}
    (h : readComparison left tokens = .ok (e, rest)) (called : Called before left) :
    ∃ used, tokens = used ++ rest ∧ Sentence (before ++ used) e := by
  cases tokens with
  | nil =>
    cases h
    exact ⟨[], rfl, by simpa using Sentence.called called⟩
  | cons sign tail =>
    cases isSign : operator? sign.kind with
    | none =>
      simp only [readComparison, isSign] at h
      cases h
      exact ⟨[], rfl, by simpa using Sentence.called called⟩
    | some operator =>
      simp only [readComparison, isSign, bind_eq_ok, pure_eq_ok, Prod.mk.injEq] at h
      obtain ⟨⟨right, rest⟩, hright, rfl, rfl⟩ := h
      obtain ⟨t, rfl, here⟩ := readOperand_sound hright
      exact ⟨[sign, t], rfl, .comparison called isSign here⟩

theorem readExpression_sound {tokens rest : List Token} {e : Expr}
    (h : readExpression tokens = .ok (e, rest)) :
    ∃ used, tokens = used ++ rest ∧ Sentence used e := by
  simp only [readExpression, bind_eq_ok] at h
  obtain ⟨⟨first, rest₁⟩, hfirst, ⟨stepped, rest₂⟩, hsteps, ⟨called, rest₃⟩, hcall, hlast⟩ := h
  obtain ⟨t, rfl, here⟩ := readOperand_sound hfirst
  obtain ⟨steps, rfl, path⟩ := readSteps_sound hsteps (.operand here)
  obtain ⟨call, rfl, whole⟩ := readCall_sound hcall path
  obtain ⟨last, rfl, sentence⟩ := readComparison_sound hlast whole
  exact ⟨[t] ++ steps ++ call ++ last, by simp, sentence⟩

theorem ofTokens_sound {tokens : List Token} {e : Expr} (h : ofTokens tokens = .ok e) :
    Sentence tokens e := by
  simp only [ofTokens, bind_eq_ok] at h
  obtain ⟨⟨e', rest⟩, hread, hend⟩ := h
  cases rest with
  | nil =>
    cases hend
    obtain ⟨used, rfl, sentence⟩ := readExpression_sound hread
    simpa using sentence
  | cons t tail => cases hend

theorem parse_sound {source : String} {e : Expr} (h : parse source = .ok e) :
    (scan source).fault = none ∧ Sentence (scan source).tokens e := by
  simp only [parse] at h
  split at h
  · cases h
    exact ⟨‹_›, ofTokens_sound ‹_›⟩
  all_goals cases h

end Gatekeeper.Grammar
