import Gatekeeper.Proofs.Expr.Complete
import Gatekeeper.Proofs.Token.Layout
import Mathlib.Data.List.Induction

/-!
# Derivations

The derivations of the grammar as data, each with the tokens it derives and the tree it stands for:

    Expression := CallMember ( ("==" | "!=") Primary )?
    CallMember := Primary ( "." Identifier )* ( "(" ( Primary ( "," Primary )* )? ")" )?
    Primary    := Variable | Identifier | Number | String

A text is read exactly if its tokens have a derivation, and what is read is the tree of it. No two
derivations have the same tokens.
-/

set_option autoImplicit false

namespace Gatekeeper.Grammar
open Gatekeeper.Expr

inductive Primary
  | variable (name : String) (offset : Nat)
  | identifier (name : String) (offset : Nat)
  | number (digits : String) (offset : Nat)
  | string (quote : Char) (value : String) (offset : Nat)

namespace Primary

def leaf : Primary → Token
  | .variable name offset => ⟨.variable, String.ofList ('$' :: name.toList), offset⟩
  | .identifier name offset => ⟨.identifier, name, offset⟩
  | .number digits offset => ⟨.number, digits, offset⟩
  | .string quote value offset =>
    ⟨.string, String.ofList (quote :: value.toList ++ [quote]), offset⟩

def tree : Primary → Expr
  | .variable name _ => .variable name
  | .identifier name _ => .identifier name
  | .number digits _ => .number (Number.ofDigits digits)
  | .string _ value _ => .string value

end Primary

structure Step where
  dot : Nat
  name : String
  offset : Nat

def Step.leaves (s : Step) : List Token := [⟨.dot, ".", s.dot⟩, ⟨.identifier, s.name, s.offset⟩]

structure Further where
  comma : Nat
  argument : Primary

def Further.leaves (f : Further) : List Token := [⟨.comma, ",", f.comma⟩, f.argument.leaf]

structure Call where
  opening : Nat
  arguments : Option (Primary × List Further)
  closing : Nat

namespace Call

def inner : Option (Primary × List Further) → List Token
  | none => []
  | some (first, further) => first.leaf :: further.flatMap Further.leaves

def leaves (c : Call) : List Token :=
  ⟨.openParen, "(", c.opening⟩ :: inner c.arguments ++ [⟨.closeParen, ")", c.closing⟩]

def trees (c : Call) : List Expr :=
  match c.arguments with
  | none => []
  | some (first, further) => first.tree :: further.map (·.argument.tree)

end Call

structure Comparison where
  operator : Operator
  offset : Nat
  right : Primary

namespace Comparison

def sign : Operator → TokenKind
  | .equal => .equality
  | .unequal => .inequality

def leaves (c : Comparison) : List Token :=
  [⟨sign c.operator, c.operator.text, c.offset⟩, c.right.leaf]

end Comparison

structure Derivation where
  head : Primary
  steps : List Step
  call : Option Call
  comparison : Option Comparison

namespace Derivation

def leaves (d : Derivation) : List Token :=
  d.head.leaf :: d.steps.flatMap Step.leaves ++ d.call.elim [] Call.leaves ++
    d.comparison.elim [] Comparison.leaves

def pathTree (head : Primary) (steps : List Step) : Expr :=
  steps.foldl (fun object s => .member object (.identifier s.name)) head.tree

def calledTree (head : Primary) (steps : List Step) : Option Call → Expr
  | none => pathTree head steps
  | some c => .call (pathTree head steps) c.trees

def tree (d : Derivation) : Expr :=
  match d.comparison with
  | none => calledTree d.head d.steps d.call
  | some c => .comparison c.operator (calledTree d.head d.steps d.call) c.right.tree

end Derivation

/-! ## What is derived is a sentence -/

theorem Primary.operand (p : Primary) : Operand p.leaf p.tree := by
  cases p with
  | «variable» name offset =>
    have unsigil : unsigiled (Primary.variable name offset).leaf.text = name := by
      simp [leaf, unsigiled]
    have here : Operand (Primary.variable name offset).leaf _ := .variable rfl
    rwa [unsigil] at here
  | identifier name offset =>
    have here : Operand (Primary.identifier name offset).leaf _ := .identifier rfl
    exact here
  | number digits offset =>
    have here : Operand (Primary.number digits offset).leaf _ := .number rfl
    exact here
  | string quote value offset =>
    have unquote : unquoted (Primary.string quote value offset).leaf.text = value := by
      simp [leaf, unquoted]
    have here : Operand (Primary.string quote value offset).leaf _ := .string rfl
    rwa [unquote] at here

theorem path_derived (head : Primary) (steps : List Step) :
    Path (head.leaf :: steps.flatMap Step.leaves) (Derivation.pathTree head steps) := by
  induction steps using List.reverseRecOn with
  | nil => exact .operand head.operand
  | append_singleton steps s ih =>
    have longer : Path (head.leaf :: steps.flatMap Step.leaves ++ s.leaves)
        (.member (Derivation.pathTree head steps) (.identifier s.name)) := ih.step rfl rfl
    simpa [Derivation.pathTree] using longer

theorem arguments_derived (first : Primary) (further : List Further) :
    Arguments (first.leaf :: further.flatMap Further.leaves)
      (first.tree :: further.map (·.argument.tree)) := by
  induction further generalizing first with
  | nil => exact .last first.operand
  | cons f further ih => exact .more first.operand rfl (ih f.argument)

theorem called_derived (head : Primary) (steps : List Step) (call : Option Call) :
    Called (head.leaf :: steps.flatMap Step.leaves ++ call.elim [] Call.leaves)
      (Derivation.calledTree head steps call) := by
  have path := path_derived head steps
  cases call with
  | none => simpa [Derivation.calledTree] using Called.path path
  | some c =>
    have inside : (Call.inner c.arguments = [] ∧ c.trees = []) ∨
        Arguments (Call.inner c.arguments) c.trees := by
      obtain ⟨opening, arguments, closing⟩ := c
      cases arguments with
      | none => exact .inl ⟨rfl, rfl⟩
      | some arguments => exact .inr (arguments_derived arguments.1 arguments.2)
    have whole : Called (head.leaf :: steps.flatMap Step.leaves ++
        ⟨.openParen, "(", c.opening⟩ :: Call.inner c.arguments ++ [⟨.closeParen, ")", c.closing⟩])
        (.call (Derivation.pathTree head steps) c.trees) := .call path rfl inside rfl
    simpa [Call.leaves, Derivation.calledTree] using whole

theorem operator?_eq_some {kind : TokenKind} {operator : Operator} :
    operator? kind = some operator ↔ kind = Comparison.sign operator := by
  cases kind <;> cases operator <;> simp [operator?, Comparison.sign]

theorem Derivation.sentence (d : Derivation) : Sentence d.leaves d.tree := by
  obtain ⟨head, steps, call, comparison⟩ := d
  have called := called_derived head steps call
  cases comparison with
  | none => simpa [leaves, tree] using Sentence.called called
  | some c => exact .comparison called (operator?_eq_some.2 rfl) c.right.operand

/-! ## Every sentence of spelled tokens is derived -/

def soleText? : TokenKind → Option String
  | .comma => some ","
  | .dot => some "."
  | .openParen => some "("
  | .closeParen => some ")"
  | .equality => some "=="
  | .inequality => some "!="
  | _ => none

variable {t : Token} {ts : List Token} {e : Expr} {es : List Expr}

theorem token_eq {kind : TokenKind} {text : String} (isKind : t.kind = kind)
    (sole : soleText? kind = some text) (spelled : Spelling t.kind t.text.toList) :
    t = ⟨kind, text, t.offset⟩ := by
  rw [isKind] at spelled
  have same : t.text = text := by
    apply String.toList_inj.1
    generalize t.text.toList = cs at spelled
    cases spelled <;> cases sole <;> rfl
  rw [← same, ← isKind]

theorem unsigiled_append {text : String} (spelled : Spelling .variable text.toList) :
    '$' :: (unsigiled text).toList = text.toList := by
  unfold unsigiled
  generalize text.toList = cs at spelled
  cases spelled
  simp

theorem unquoted_append {text : String} (spelled : Spelling .string text.toList) :
    ∃ quote, (quote = '"' ∨ quote = '\'') ∧ quote ∉ (unquoted text).toList ∧
      quote :: (unquoted text).toList ++ [quote] = text.toList := by
  unfold unquoted
  generalize text.toList = cs at spelled
  cases spelled with
  | @string quote cs isQuote inside => exact ⟨quote, isQuote, by simpa using inside, by simp⟩

theorem Operand.primary (here : Operand t e) (spelled : Spelling t.kind t.text.toList) :
    ∃ p : Primary, p.leaf = t ∧ p.tree = e := by
  obtain ⟨kind, text, offset⟩ := t
  cases here with
  | «variable» isKind =>
    cases isKind
    refine ⟨.variable (unsigiled text) offset, ?_, rfl⟩
    rw [Primary.leaf, unsigiled_append spelled, String.ofList_toList]
  | identifier isKind =>
    cases isKind
    exact ⟨.identifier text offset, rfl, rfl⟩
  | number isKind =>
    cases isKind
    exact ⟨.number text offset, rfl, rfl⟩
  | string isKind =>
    cases isKind
    obtain ⟨quote, -, -, whole⟩ := unquoted_append spelled
    refine ⟨.string quote (unquoted text) offset, ?_, rfl⟩
    rw [Primary.leaf, whole, String.ofList_toList]

def Spelled (ts : List Token) : Prop := ∀ t ∈ ts, Spelling t.kind t.text.toList

theorem Path.derivation (path : Path ts e) (spelled : Spelled ts) :
    ∃ head steps, head.leaf :: steps.flatMap Step.leaves = ts ∧
      Derivation.pathTree head steps = e := by
  induction path with
  | operand here =>
    obtain ⟨head, leaf, tree⟩ := here.primary (spelled _ (by simp))
    exact ⟨head, [], by simpa using leaf, tree⟩
  | @step ts object dot name before isDot isName ih =>
    obtain ⟨head, steps, rfl, rfl⟩ := ih fun t ht => spelled t (by simp [ht])
    have dots := token_eq isDot rfl (spelled dot (by simp))
    refine ⟨head, steps ++ [⟨dot.offset, name.text, name.offset⟩], ?_, ?_⟩
    · rw [List.flatMap_append, ← List.cons_append, List.flatMap_singleton, Step.leaves, ← dots,
        ← isName]
    · simp [Derivation.pathTree]

theorem Arguments.derivation (inside : Arguments ts es) (spelled : Spelled ts) :
    ∃ (first : Primary) (further : List Further),
      first.leaf :: further.flatMap Further.leaves = ts ∧
        first.tree :: further.map (·.argument.tree) = es := by
  induction inside with
  | last here =>
    obtain ⟨first, leaf, tree⟩ := here.primary (spelled _ (by simp))
    exact ⟨first, [], by simpa using leaf, by simpa using tree⟩
  | @more t comma e ts es here isComma after ih =>
    obtain ⟨first, leaf, tree⟩ := here.primary (spelled t (by simp))
    obtain ⟨second, further, leaves, trees⟩ := ih fun t ht => spelled t (by simp [ht])
    have commas := token_eq isComma rfl (spelled comma (by simp))
    refine ⟨first, ⟨comma.offset, second⟩ :: further, ?_, ?_⟩
    · rw [List.flatMap_cons, Further.leaves, ← commas, leaf, ← leaves]
      rfl
    · rw [← trees, ← tree]
      rfl

theorem Called.derivation (called : Called ts e) (spelled : Spelled ts) :
    ∃ (head : Primary) (steps : List Step) (call : Option Call),
      head.leaf :: steps.flatMap Step.leaves ++ call.elim [] Call.leaves = ts ∧
        Derivation.calledTree head steps call = e := by
  cases called with
  | path path =>
    obtain ⟨head, steps, leaves, tree⟩ := path.derivation spelled
    exact ⟨head, steps, none, by simpa using leaves, tree⟩
  | @call ts args callee es opening closing before isOpen inside isClose =>
    obtain ⟨head, steps, rfl, rfl⟩ := before.derivation fun t ht => spelled t (by simp [ht])
    have opens := token_eq isOpen rfl (spelled opening (by simp))
    have closes := token_eq isClose rfl (spelled closing (by simp))
    obtain ⟨arguments, leaves, trees⟩ : ∃ arguments, Call.inner arguments = args ∧
        (Call.mk opening.offset arguments closing.offset).trees = es := by
      rcases inside with ⟨rfl, rfl⟩ | inside
      · exact ⟨none, rfl, rfl⟩
      · obtain ⟨first, further, leaves, trees⟩ :=
          inside.derivation fun t ht => spelled t (by simp [ht])
        exact ⟨some (first, further), leaves, trees⟩
    refine ⟨head, steps, some ⟨opening.offset, arguments, closing.offset⟩, ?_, ?_⟩
    · rw [Option.elim_some, Call.leaves, ← opens, ← closes, leaves]
      simp
    · rw [Derivation.calledTree, trees]

theorem Sentence.derivation (sentence : Sentence ts e) (spelled : Spelled ts) :
    ∃ d : Derivation, d.leaves = ts ∧ d.tree = e := by
  cases sentence with
  | called called =>
    obtain ⟨head, steps, call, rfl, rfl⟩ := called.derivation spelled
    exact ⟨⟨head, steps, call, none⟩, by simp [Derivation.leaves], rfl⟩
  | @comparison ts sign t operator left right before isSign after =>
    obtain ⟨head, steps, call, rfl, rfl⟩ :=
      before.derivation fun t ht => spelled t (by simp [ht])
    obtain ⟨p, leaf, tree⟩ := after.primary (spelled t (by simp))
    have signs : sign = ⟨Comparison.sign operator, operator.text, sign.offset⟩ :=
      token_eq (operator?_eq_some.1 isSign) (by cases operator <;> rfl) (spelled sign (by simp))
    refine ⟨⟨head, steps, call, some ⟨operator, sign.offset, p⟩⟩, ?_, ?_⟩
    · rw [Derivation.leaves, Option.elim_some, Comparison.leaves, ← signs, leaf]
    · rw [← tree]
      rfl

/-! ## No tokens have two derivations -/

theorem Primary.leaf_injective {p q : Primary} (same : p.leaf = q.leaf) : p = q := by
  cases p <;> cases q <;> simp [leaf] at same
  all_goals simp [same]

theorem Primary.leaf_kind (p : Primary) {kind : TokenKind}
    (other : kind ∉ [TokenKind.variable, .identifier, .number, .string]) : p.leaf.kind ≠ kind :=
  p.operand.kind_ne other

/-- Where blocks of two tokens that begin with tokens of a kind are followed by a token of another
kind, each text of tokens is cut into blocks in at most one way. -/
theorem blocks_inj {β : Type} {leaves : β → List Token} {kind : TokenKind}
    (two : ∀ b, ∃ first second, leaves b = [first, second] ∧ first.kind = kind)
    (inj : ∀ {b c}, leaves b = leaves c → b = c) {bs cs : List β} {rest rest' : List Token}
    (stop : Lacks kind rest) (stop' : Lacks kind rest')
    (same : bs.flatMap leaves ++ rest = cs.flatMap leaves ++ rest') : bs = cs ∧ rest = rest' := by
  -- What lacks the kind does not begin with a block, so both lists run out at once.
  have none : ∀ {b : β} {more rest : List Token}, Lacks kind rest →
      rest ≠ leaves b ++ more := by
    rintro b more _ stop rfl
    obtain ⟨first, second, block, isKind⟩ := two b
    exact stop first (by simp [block]) isKind
  induction bs generalizing cs with
  | nil =>
    cases cs with
    | nil => exact ⟨rfl, same⟩
    | cons c cs => exact absurd (by simpa using same) (none stop)
  | cons b bs ih =>
    cases cs with
    | nil => exact absurd (by simpa using same.symm) (none stop')
    | cons c cs =>
      obtain ⟨b₁, b₂, block, -⟩ := two b
      obtain ⟨c₁, c₂, block', -⟩ := two c
      simp only [List.flatMap_cons, block, block', List.cons_append, List.nil_append,
        List.cons.injEq] at same
      obtain ⟨rfl, rfl, later⟩ := same
      obtain ⟨rfl, rfl⟩ := ih later
      exact ⟨by rw [inj (block.trans block'.symm)], rfl⟩

theorem Call.inner_inj {arguments arguments' : Option (Primary × List Further)}
    {closing closing' : Token} {rest rest' : List Token} (isClose : closing.kind = .closeParen)
    (isClose' : closing'.kind = .closeParen)
    (same : inner arguments ++ closing :: rest = inner arguments' ++ closing' :: rest') :
    arguments = arguments' ∧ closing = closing' ∧ rest = rest' := by
  have lacks : ∀ {c : Token} {rest : List Token}, c.kind = .closeParen →
      Lacks .comma (c :: rest) := by
    rintro c rest isClose _ ⟨⟩
    simp [isClose]
  cases arguments with
  | none =>
    cases arguments' with
    | none => simpa [inner] using same
    | some arguments' =>
      obtain ⟨first, further⟩ := arguments'
      obtain ⟨rfl, -⟩ : closing = first.leaf ∧ _ := by simpa [inner] using same
      exact absurd isClose (first.leaf_kind (by decide))
  | some arguments =>
    obtain ⟨first, further⟩ := arguments
    cases arguments' with
    | none =>
      obtain ⟨rfl, -⟩ : first.leaf = closing' ∧ _ := by simpa [inner] using same
      exact absurd isClose' (first.leaf_kind (by decide))
    | some arguments' =>
      obtain ⟨first', further'⟩ := arguments'
      simp only [inner, List.cons_append, List.cons.injEq] at same
      obtain ⟨head, later⟩ := same
      have two : ∀ f : Further, ∃ x y, f.leaves = [x, y] ∧ x.kind = .comma :=
        fun f => ⟨_, _, rfl, rfl⟩
      have inj : ∀ {f g : Further}, f.leaves = g.leaves → f = g := by
        rintro ⟨comma, argument⟩ ⟨comma', argument'⟩ h
        simp only [Further.leaves, List.cons.injEq, Token.mk.injEq, true_and, and_true] at h
        rw [h.1, Primary.leaf_injective h.2]
      obtain ⟨rfl, rest⟩ := blocks_inj two inj (lacks isClose) (lacks isClose') later
      rw [Primary.leaf_injective head]
      exact ⟨rfl, by simpa using rest⟩

namespace Comparison

theorem leaves_inj {c c' : Option Comparison}
    (same : c.elim [] leaves = c'.elim [] leaves) : c = c' := by
  cases c with
  | none =>
    cases c' with
    | none => rfl
    | some c' => cases same
  | some c =>
    cases c' with
    | none => cases same
    | some c' =>
      obtain ⟨operator, offset, right⟩ := c
      obtain ⟨operator', offset', right'⟩ := c'
      simp only [Option.elim_some, leaves, List.cons.injEq, Token.mk.injEq, and_true] at same
      obtain ⟨⟨signs, -, rfl⟩, leaf⟩ := same
      obtain rfl : operator = operator' := by
        cases operator <;> cases operator' <;> first | rfl | cases signs
      rw [Primary.leaf_injective leaf]

theorem lacks {kind : TokenKind} (other : ∀ operator, sign operator ≠ kind)
    (c : Option Comparison) : Lacks kind (c.elim [] leaves) := by
  cases c with
  | none => nofun
  | some c =>
    rintro t ⟨⟩
    exact other c.operator

end Comparison

theorem Call.leaves_inj {call call' : Option Call} {c c' : Option Comparison}
    (same : call.elim [] leaves ++ c.elim [] Comparison.leaves =
      call'.elim [] leaves ++ c'.elim [] Comparison.leaves) : call = call' ∧ c = c' := by
  have none : ∀ (call : Call) (c c' : Option Comparison),
      call.leaves ++ c.elim [] Comparison.leaves ≠ c'.elim [] Comparison.leaves := by
    intro call c c' same
    have lacks : Lacks .openParen (c'.elim [] Comparison.leaves) :=
      Comparison.lacks (by rintro ⟨⟩ <;> decide) c'
    rw [← same] at lacks
    exact lacks _ rfl rfl
  cases call with
  | none =>
    cases call' with
    | none => exact ⟨rfl, Comparison.leaves_inj same⟩
    | some call' => exact absurd same.symm (none call' c' c)
  | some call =>
    cases call' with
    | none => exact absurd same (none call c c')
    | some call' =>
      obtain ⟨opening, arguments, closing⟩ := call
      obtain ⟨opening', arguments', closing'⟩ := call'
      simp only [Option.elim_some, leaves, List.append_assoc, List.cons_append, List.nil_append,
        List.cons.injEq, Token.mk.injEq, true_and] at same
      obtain ⟨rfl, inside⟩ := same
      obtain ⟨rfl, close, later⟩ := inner_inj rfl rfl inside
      cases close
      exact ⟨rfl, Comparison.leaves_inj later⟩

theorem Derivation.leaves_injective {d d' : Derivation} (same : d.leaves = d'.leaves) :
    d = d' := by
  obtain ⟨head, steps, call, comparison⟩ := d
  obtain ⟨head', steps', call', comparison'⟩ := d'
  simp only [leaves, List.append_assoc, List.cons_append, List.cons.injEq] at same
  obtain ⟨first, later⟩ := same
  have two : ∀ s : Step, ∃ x y, s.leaves = [x, y] ∧ x.kind = .dot := fun s => ⟨_, _, rfl, rfl⟩
  have inj : ∀ {s s' : Step}, s.leaves = s'.leaves → s = s' := by
    rintro ⟨dot, name, offset⟩ ⟨dot', name', offset'⟩ h
    simpa [Step.leaves] using h
  have stop : ∀ (call : Option Call) (c : Option Comparison),
      Lacks .dot (call.elim [] Call.leaves ++ c.elim [] Comparison.leaves) := by
    intro call c
    cases call with
    | none => exact Comparison.lacks (by rintro ⟨⟩ <;> decide) c
    | some call =>
      rintro t ⟨⟩
      exact TokenKind.noConfusion
  obtain ⟨rfl, rest⟩ := blocks_inj two inj (stop call comparison) (stop call' comparison') later
  obtain ⟨rfl, rfl⟩ := Call.leaves_inj rest
  rw [Primary.leaf_injective first]

theorem tokenize_eq_ok {source : String} :
    tokenize source = .ok ts ↔ scan source = ⟨ts, none⟩ := by
  unfold tokenize
  obtain ⟨tokens, fault⟩ := scan source
  cases fault <;> simp

/-- A text is read exactly if its tokens are derived, as the tree of the only derivation. -/
theorem parse_eq_ok_iff_derivation :
    (∀ source e, parse source = .ok e ↔
      ∃ tokens, tokenize source = .ok tokens ∧ ∃ d : Derivation, d.leaves = tokens ∧ d.tree = e) ∧
    ∀ d d' : Derivation, d.leaves = d'.leaves → d = d' := by
  refine ⟨fun source e => ?_, fun _ _ => Derivation.leaves_injective⟩
  simp only [parse_eq_ok_iff, tokenize_eq_ok]
  constructor
  · rintro ⟨tokens, scanned, sentence⟩
    exact ⟨tokens, scanned, sentence.derivation (scan_eq_layout.1 scanned).spelling⟩
  · rintro ⟨tokens, scanned, d, rfl, rfl⟩
    exact ⟨_, scanned, d.sentence⟩

end Gatekeeper.Grammar
