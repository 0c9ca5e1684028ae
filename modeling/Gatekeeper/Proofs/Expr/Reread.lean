import Gatekeeper.Proofs.Expr.Derivation
import Gatekeeper.Proofs.Expr.Listing
import Gatekeeper.Proofs.Number.Digits

/-!
# Reading what is written

The written form of a tree that was read is read again, and all of the tree comes back but numbers
that are too large: digits write them, but they are written as a word, and a word is what is read.
-/

set_option autoImplicit false

namespace Gatekeeper

theorem Number.same_of_isFinite {x : Number} (finite : x.isFinite = true) : x.same x = true := by
  have below : x.magnitudeBits < infinityBits := by simpa [isFinite] using finite
  have number : x.isNaN = false := by simpa [isNaN] using Nat.le_of_lt below
  simp [same, number]

/-! ## The tree that comes back -/

namespace Expr

mutual

def reread : Expr → Expr
  | .number x => if x.isFinite then .number x else .identifier x.text
  | .string s => .string s
  | .identifier name => .identifier name
  | .variable name => .variable name
  | .member object property => .member object.reread property.reread
  | .call callee arguments => .call callee.reread (rereadAll arguments)
  | .comparison operator left right => .comparison operator left.reread right.reread

def rereadAll : List Expr → List Expr
  | [] => []
  | e :: es => e.reread :: rereadAll es

end

mutual

theorem reread_chars (e : Expr) : e.reread.chars = e.chars := by
  match e with
  | .number x =>
    rw [reread]
    split <;> rfl
  | .string s => rfl
  | .identifier name => rfl
  | .variable name => rfl
  | .member object property => rw [reread, chars, reread_chars object, reread_chars property, chars]
  | .call callee arguments =>
    rw [reread, chars, reread_chars callee, rereadAll_chars arguments, chars]
  | .comparison operator left right =>
    rw [reread, chars, reread_chars left, reread_chars right, chars]

theorem rereadAll_chars (es : List Expr) : allChars (rereadAll es) = allChars es := by
  match es with
  | [] => rfl
  | e :: es => rw [rereadAll, allChars, reread_chars e, rereadAll_chars es, allChars]

end

theorem reread_text (e : Expr) : e.reread.text = e.text := by
  rw [text, text, reread_chars]

def Bounded (nodes : List (Expr × Place)) : Prop :=
  ∀ x place, (.number x, place) ∈ nodes → x.isFinite = true

@[simp] theorem bounded_append {nodes more : List (Expr × Place)} :
    Bounded (nodes ++ more) ↔ Bounded nodes ∧ Bounded more := by
  simp only [Bounded, List.mem_append, or_imp, forall_and]

@[simp] theorem bounded_nil : Bounded [] := nofun

@[simp] theorem bounded_cons {node : Expr × Place} {more : List (Expr × Place)} :
    Bounded (node :: more) ↔ (∀ x, node.1 = .number x → x.isFinite = true) ∧ Bounded more := by
  obtain ⟨e, place⟩ := node
  simp only [Bounded, List.mem_cons, Prod.mk.injEq, or_imp, forall_and]
  apply and_congr_left'
  constructor
  · intro h x same
    exact h x place ⟨same.symm, rfl⟩
  · rintro h x place' ⟨same, -⟩
    exact h x same.symm

mutual

theorem reread_eq (e : Expr) (place : Place) : e.reread = e ↔ Bounded (e.nodes place) := by
  match e with
  | .number x => by_cases finite : x.isFinite = true <;> simp [reread, nodes, finite]
  | .string s => simp [reread, nodes]
  | .identifier name => simp [reread, nodes]
  | .variable name => simp [reread, nodes]
  | .member object property => simp [reread, nodes, ← reread_eq object, ← reread_eq property]
  | .call callee arguments => simp [reread, nodes, ← reread_eq callee, ← rereadAll_eq arguments]
  | .comparison operator left right => simp [reread, nodes, ← reread_eq left, ← reread_eq right]

theorem rereadAll_eq (es : List Expr) (parent : Expr) (index : Nat) :
    rereadAll es = es ↔ Bounded (argumentNodes parent index es) := by
  match es with
  | [] => simp [rereadAll, argumentNodes]
  | e :: es => simp [rereadAll, argumentNodes, ← reread_eq e, ← rereadAll_eq es]

end

mutual

theorem reread_same (e : Expr) (place : Place) :
    e.reread.same e = true ↔ Bounded (e.nodes place) := by
  match e with
  | .number x =>
    by_cases finite : x.isFinite = true <;> simp [reread, nodes, same, finite, x.same_of_isFinite]
  | .string s => simp [reread, nodes, same]
  | .identifier name => simp [reread, nodes, same]
  | .variable name => simp [reread, nodes, same]
  | .member object property =>
    simp [reread, nodes, same, ← reread_same object, ← reread_same property]
  | .call callee arguments =>
    simp [reread, nodes, same, ← reread_same callee, ← rereadAll_same arguments]
  | .comparison operator left right =>
    simp [reread, nodes, same, ← reread_same left, ← reread_same right]

theorem rereadAll_same (es : List Expr) (parent : Expr) (index : Nat) :
    allSame (rereadAll es) es = true ↔ Bounded (argumentNodes parent index es) := by
  match es with
  | [] => simp [rereadAll, argumentNodes, allSame]
  | e :: es => simp [rereadAll, argumentNodes, allSame, ← reread_same e, ← rereadAll_same es]

end

end Expr

/-! ## Texts that hold tokens of a sort

Where a token ends depends on what stands after it, so a text is put together from its right end. -/

namespace Grammar
open Gatekeeper.Expr

variable {t : Token} {ts : List Token} {e : Expr} {es : List Expr} {rest : List Char}
variable {Q : List Token → Prop}

def Holds (cs : List Char) (Q : List Token → Prop) : Prop :=
  ∀ offset, ∃ ts, Layout offset ts cs ∧ Q ts

def Then (R Q : List Token → Prop) (ts : List Token) : Prop :=
  ∃ used after, ts = used ++ after ∧ R used ∧ Q after

def Delimits (rest : List Char) : Prop := ∀ c ∈ rest.head?, isWordChar c = false

theorem delimits_nil : Delimits [] := by
  simp [Delimits]

theorem Delimits.ends (delimits : Delimits rest) (kind : TokenKind) : kind.EndsBefore rest := by
  intro c hc
  have other := delimits c hc
  cases kind with
  | number =>
    by_contra digit
    have word := isDigit_isWordChar (eq_true_of_ne_false digit)
    simp [word] at other
  | «variable» | identifier => exact other
  | _ => rfl

theorem blank_space : ∀ c ∈ [' '], isBlank c = true :=
  List.forall_mem_singleton.2 rfl

def One (kind : TokenKind) (cs : List Char) (ts : List Token) : Prop :=
  ∃ t, ts = [t] ∧ t.kind = kind ∧ t.text.toList = cs

theorem Holds.mono {Q' : List Token → Prop} {cs : List Char} (h : Holds cs Q)
    (within : ∀ ts, Q ts → Q' ts) : Holds cs Q' := by
  intro offset
  obtain ⟨ts, layout, sort⟩ := h offset
  exact ⟨ts, layout, within ts sort⟩

theorem Holds.nil (sort : Q []) : Holds [] Q :=
  fun _ => ⟨[], .blanks (by simp), sort⟩

theorem Holds.token {kind : TokenKind} {cs : List Char} (later : Holds rest Q)
    (before : List Char) (blank : ∀ c ∈ before, isBlank c = true) (spelling : Spelling kind cs)
    (ends : kind.EndsBefore rest) : Holds (before ++ cs ++ rest) (Then (One kind cs) Q) := by
  intro offset
  let place := offset + byteLength before
  obtain ⟨after, layout, sort⟩ := later (place + byteLength cs)
  let t : Token := ⟨kind, String.ofList cs, place⟩
  have text : t.text.toList = cs := String.toList_ofList
  refine ⟨t :: after, ?_, [t], after, rfl, ⟨t, rfl, rfl, text⟩, sort⟩
  rw [← text]
  refine .token blank rfl ?_ ends ?_
  · rw [text]
    exact spelling
  · rw [text]
    exact layout

/-! ## What is written for what was derived -/

theorem string_spelling {s : String} {quote : Char} (isQuote : quote = '"' ∨ quote = '\'')
    (inside : quote ∉ s.toList) : Spelling .string (stringChars s) := by
  unfold stringChars
  split
  · rename_i apostrophe
    refine .string (.inl rfl) ?_
    -- A string with an apostrophe in it has been between double quotes, and so has none of these.
    rcases isQuote with rfl | rfl
    · exact inside
    · exact absurd (by simpa using apostrophe) inside
  · rename_i plain
    exact .string (.inr rfl) (by simpa using plain)

theorem unquoted_stringChars {text s : String} (same : text.toList = stringChars s) :
    unquoted text = s := by
  rw [unquoted, same, stringChars]
  split <;> simp

theorem inf_spelling : Spelling .identifier "inf".toList :=
  .identifier rfl rfl (List.forall_mem_cons.2 ⟨rfl, List.forall_mem_singleton.2 rfl⟩)

theorem Operand.written (here : Operand t e) (spelled : Spelling t.kind t.text.toList) :
    ∃ kind, Spelling kind e.chars ∧
      ∀ t' : Token, t'.kind = kind → t'.text.toList = e.chars → Operand t' e.reread := by
  cases here with
  | «variable» isKind =>
    rw [isKind] at spelled
    refine ⟨.variable, ?_, ?_⟩
    · rw [chars, unsigiled_append spelled]
      exact spelled
    · intro t' isKind' same
      have text : t'.text = t.text := by
        rwa [chars, unsigiled_append spelled, String.toList_inj] at same
      rw [reread, ← text]
      exact .variable isKind'
  | identifier isKind =>
    rw [isKind] at spelled
    refine ⟨.identifier, spelled, ?_⟩
    intro t' isKind' same
    have text : t'.text = t.text := String.toList_inj.1 same
    rw [reread, ← text]
    exact .identifier isKind'
  | number isKind =>
    by_cases finite : (Number.ofDigits t.text).isFinite = true
    · obtain ⟨nonempty, digits, reads⟩ := Number.ofDigits_text finite
      refine ⟨.number, ?_, ?_⟩
      · rw [chars]
        obtain ⟨c, cs, split⟩ := List.exists_cons_of_ne_nil nonempty
        rw [split] at digits ⊢
        exact .number (digits c (by simp)) fun d hd => digits d (by simp [hd])
      · intro t' isKind' same
        have text : t'.text = (Number.ofDigits t.text).text := String.toList_inj.1 same
        rw [reread, if_pos finite, ← reads, ← text]
        exact .number isKind'
    · have word := Number.ofDigits_text_infinite (eq_false_of_ne_true finite)
      refine ⟨.identifier, ?_, ?_⟩
      · rw [chars, word]
        exact inf_spelling
      · intro t' isKind' same
        have text : t'.text = (Number.ofDigits t.text).text := String.toList_inj.1 same
        rw [reread, if_neg finite, ← text]
        exact .identifier isKind'
  | string isKind =>
    rw [isKind] at spelled
    obtain ⟨quote, isQuote, inside, -⟩ := unquoted_append spelled
    refine ⟨.string, string_spelling isQuote inside, ?_⟩
    intro t' isKind' same
    rw [reread, ← unquoted_stringChars same]
    exact .string isKind'

theorem Operand.holds (here : Operand t e) (spelled : Spelling t.kind t.text.toList)
    (before : List Char) (blank : ∀ c ∈ before, isBlank c = true) (delimits : Delimits rest)
    (later : Holds rest Q) :
    Holds (before ++ e.chars ++ rest)
      (Then (fun used => ∃ t', used = [t'] ∧ Operand t' e.reread) Q) := by
  obtain ⟨kind, spelling, reads⟩ := here.written spelled
  refine (later.token before blank spelling (delimits.ends kind)).mono ?_
  rintro _ ⟨_, after, rfl, ⟨t', rfl, isKind, text⟩, sort⟩
  exact ⟨[t'], after, rfl, ⟨t', rfl, reads t' isKind text⟩, sort⟩

theorem Path.holds (path : Path ts e) (spelled : Spelled ts) (delimits : Delimits rest)
    (later : Holds rest Q) : Holds (e.chars ++ rest) (Then (Path · e.reread) Q) := by
  induction path generalizing rest Q with
  | operand here =>
    refine (here.holds (spelled _ (by simp)) [] (by simp) delimits later).mono ?_
    rintro _ ⟨_, after, rfl, ⟨t', rfl, operand⟩, sort⟩
    exact ⟨[t'], after, rfl, .operand operand, sort⟩
  | @step ts object dot name before isDot isName ih =>
    have word : Spelling .identifier name.text.toList := by
      rw [← isName]
      exact spelled name (by simp)
    -- The object is written in front of the step, which the induction takes as what follows.
    have step : Holds (['.'] ++ (name.text.toList ++ rest))
        (Then (One .dot ['.']) (Then (One .identifier name.text.toList) Q)) :=
      (later.token [] (by simp) word (delimits.ends _)).token [] (by simp) .dot
        (.of_free rfl _)
    have whole := ih (fun t ht => spelled t (by simp [ht])) (by rintro _ ⟨⟩; rfl) step
    have shape : (Expr.member object (.identifier name.text)).chars ++ rest =
        object.chars ++ (['.'] ++ (name.text.toList ++ rest)) := by simp [chars]
    rw [shape]
    refine whole.mono ?_
    rintro _ ⟨used, _, rfl, path, _, _, rfl, ⟨dot, rfl, isDot, -⟩, _, after, rfl,
      ⟨name', rfl, isName, text⟩, sort⟩
    rw [reread, reread, ← String.toList_inj.1 text]
    exact ⟨used ++ [dot, name'], after, by simp, path.step isDot isName, sort⟩

theorem Arguments.holds (inside : Arguments ts es) (spelled : Spelled ts) (before : List Char)
    (blank : ∀ c ∈ before, isBlank c = true) (delimits : Delimits rest) (later : Holds rest Q) :
    Holds (before ++ List.intercalate [',', ' '] (allChars es) ++ rest)
      (Then (Arguments · (rereadAll es)) Q) := by
  induction inside generalizing before with
  | @last t e here =>
    have written : List.intercalate [',', ' '] (allChars [e]) = e.chars := by
      simp [allChars, List.intercalate]
    rw [written]
    refine (here.holds (spelled _ (by simp)) before blank delimits later).mono ?_
    rintro _ ⟨_, after, rfl, ⟨t', rfl, operand⟩, sort⟩
    exact ⟨[t'], after, rfl, .last operand, sort⟩
  | @more t comma e ts es here isComma inside ih =>
    have further := ih (fun t ht => spelled t (by simp [ht])) [' '] blank_space
    have step := further.token [] (by simp) .comma (.of_free rfl _)
    have first := here.holds (spelled _ (by simp)) before blank (by rintro _ ⟨⟩; rfl) step
    have written : List.intercalate [',', ' '] (allChars (e :: es)) =
        e.chars ++ [','] ++ [' '] ++ List.intercalate [',', ' '] (allChars es) := by
      cases inside <;> simp [allChars, List.intercalate]
    rw [written]
    simp only [List.append_assoc, List.nil_append] at first ⊢
    refine first.mono ?_
    rintro _ ⟨_, _, rfl, ⟨t', rfl, operand⟩, _, _, rfl, ⟨comma', rfl, isComma', -⟩, used, after,
      rfl, arguments, sort⟩
    exact ⟨t' :: comma' :: used, after, by simp, .more operand isComma' arguments, sort⟩

theorem Called.holds (called : Called ts e) (spelled : Spelled ts) (delimits : Delimits rest)
    (later : Holds rest Q) : Holds (e.chars ++ rest) (Then (Called · e.reread) Q) := by
  cases called with
  | path path =>
    refine (path.holds spelled delimits later).mono ?_
    rintro _ ⟨used, after, rfl, path, sort⟩
    exact ⟨used, after, rfl, .path path, sort⟩
  | @call ts args callee es opening closing path isOpen inside isClose =>
    have close : Holds ([')'] ++ rest) (Then (One .closeParen [')']) Q) :=
      later.token [] (by simp) .closeParen (.of_free rfl _)
    have arguments : Holds (List.intercalate [',', ' '] (allChars es) ++ ([')'] ++ rest))
        (Then (fun used => (used = [] ∧ rereadAll es = []) ∨ Arguments used (rereadAll es))
          (Then (One .closeParen [')']) Q)) := by
      rcases inside with ⟨-, rfl⟩ | inside
      · exact close.mono fun ts sort => ⟨[], ts, rfl, .inl ⟨rfl, rfl⟩, sort⟩
      · refine (inside.holds (fun t ht => spelled t (by simp [ht])) [] (by simp)
          (by rintro _ ⟨⟩; rfl) close).mono ?_
        rintro _ ⟨used, after, rfl, arguments, sort⟩
        exact ⟨used, after, rfl, .inr arguments, sort⟩
    have opens := arguments.token [] (by simp) .openParen (.of_free rfl _)
    have whole := path.holds (fun t ht => spelled t (by simp [ht])) (by rintro _ ⟨⟩; rfl) opens
    have shape : (Expr.call callee es).chars ++ rest = callee.chars ++ ([] ++ ['('] ++
        (List.intercalate [',', ' '] (allChars es) ++ ([')'] ++ rest))) := by simp [chars]
    rw [shape]
    refine whole.mono ?_
    rintro _ ⟨used, _, rfl, path, _, _, rfl, ⟨opening, rfl, isOpen, -⟩, args, _, rfl, inside, _,
      after, rfl, ⟨closing, rfl, isClose, -⟩, sort⟩
    rw [reread]
    exact ⟨used ++ opening :: args ++ [closing], after, by simp,
      .call path isOpen inside isClose, sort⟩

theorem sign_spelling (operator : Operator) :
    Spelling (Comparison.sign operator) operator.text.toList := by
  cases operator
  · exact .equality
  · exact .inequality

/-- What a sentence stands for is written as a sentence for what it is read as. -/
theorem Sentence.holds (sentence : Sentence ts e) (spelled : Spelled ts) :
    Holds e.chars (Sentence · e.reread) := by
  cases sentence with
  | called called =>
    have whole := called.holds spelled delimits_nil (Holds.nil (Q := (· = [])) rfl)
    rw [List.append_nil] at whole
    refine whole.mono ?_
    rintro _ ⟨used, _, rfl, called, rfl⟩
    rw [List.append_nil]
    exact .called called
  | @comparison ts sign t operator left right called isSign after =>
    have last := after.holds (spelled t (by simp)) [' '] blank_space delimits_nil
      (Holds.nil (Q := (· = [])) rfl)
    have signs := last.token [' '] blank_space (sign_spelling operator)
      (.of_free (by cases operator <;> rfl) _)
    have whole := called.holds (fun t ht => spelled t (by simp [ht])) (by rintro _ ⟨⟩; rfl) signs
    have shape : (Expr.comparison operator left right).chars = left.chars ++
        ([' '] ++ operator.text.toList ++ ([' '] ++ right.chars ++ [])) := by simp [chars]
    rw [shape]
    refine whole.mono ?_
    rintro _ ⟨used, _, rfl, called, _, _, rfl, ⟨sign, rfl, isSign, -⟩, _, _, rfl,
      ⟨t', rfl, operand⟩, rfl⟩
    rw [reread]
    exact .comparison called (operator?_eq_some.2 isSign) operand

end Grammar

/-! ## Reading back -/

namespace Expr
open Grammar

theorem parse_text {source : String} {e : Expr} (read : parse source = .ok e) :
    parse e.text = .ok e.reread := by
  obtain ⟨tokens, scanned, sentence⟩ := parse_eq_ok_iff.1 read
  obtain ⟨again, layout, sentence'⟩ := sentence.holds (scan_eq_layout.1 scanned).spelling 0
  refine parse_eq_ok_iff.2 ⟨again, ?_, sentence'⟩
  apply scan_eq_layout.2
  rw [text, String.toList_ofList]
  exact layout

/-- What was read is written so that it is read again and written the same, and the tree is the
same exactly if all numbers in it are finite, as a value and as trees are compared. -/
theorem parse_text_of_parse {source : String} {e : Expr} (read : parse source = .ok e) :
    ∃ again, parse e.text = .ok again ∧ again.text = e.text ∧
      (again = e ↔ ∀ x place, (.number x, place) ∈ e.nodes .root → x.isFinite = true) ∧
        (again.same e = true ↔ again = e) := by
  refine ⟨e.reread, parse_text read, reread_text e, reread_eq e .root, ?_⟩
  rw [reread_same e .root, reread_eq e .root]

theorem scan_spelling {kind : TokenKind} {source : String}
    (spelling : Spelling kind source.toList) : scan source = ⟨[⟨kind, source, 0⟩], none⟩ := by
  have alone : Layout 0 [⟨kind, source, 0⟩] ([] ++ source.toList ++ []) :=
    .token (by simp) rfl spelling (by simp [TokenKind.EndsBefore]) (.blanks (by simp))
  rw [List.nil_append, List.append_nil] at alone
  exact scan_eq_layout.2 alone

def nines : String := String.ofList (List.replicate 400 '9')

theorem nines_digits : nines.toList = '9' :: List.replicate 399 '9' := String.toList_ofList

theorem parse_nines : parse nines = .ok (.number (Number.ofDigits nines)) := by
  have spelling : Spelling .number nines.toList := by
    rw [nines_digits]
    exact .number rfl fun c hc => by rw [List.eq_of_mem_replicate hc]; rfl
  exact parse_eq_ok_iff.2 ⟨_, scan_spelling spelling, .called (.path (.operand (.number rfl)))⟩

theorem nines_infinite : (Number.ofDigits nines).isFinite = false := by
  rw [Number.ofDigits, nines_digits]
  decide +kernel

def listed : Expr :=
  .comparison .unequal
    (.call (.identifier "in") [.variable "a", .string "it's", .number (Number.ofDigits "007")])
    (.string "x")

theorem parse_listed : parse "in($a,\"it's\" , 007)!='x'" = .ok listed := by
  have scanned : scan "in($a,\"it's\" , 007)!='x'" = ⟨[⟨.identifier, "in", 0⟩,
      ⟨.openParen, "(", 2⟩, ⟨.variable, "$a", 3⟩, ⟨.comma, ",", 5⟩, ⟨.string, "\"it's\"", 6⟩,
      ⟨.comma, ",", 13⟩, ⟨.number, "007", 15⟩, ⟨.closeParen, ")", 18⟩,
      ⟨.inequality, "!=", 19⟩, ⟨.string, "'x'", 21⟩], none⟩ := by decide +kernel
  exact parse_eq_ok_iff.2 ⟨_, scanned, ofTokens_eq_ok.1 rfl⟩

/-- A list of arguments is read back as it was; four hundred nines are not. -/
theorem parse_text_of_parse_listed :
    (listed.text = "in($a, \"it's\", 7) != 'x'" ∧ parse listed.text = .ok listed) ∧
      ∃ again, parse (Expr.number (.ofDigits nines)).text = .ok again ∧
        again ≠ .number (.ofDigits nines) := by
  constructor
  · obtain ⟨again, read, -, same, -⟩ := parse_text_of_parse parse_listed
    have finite : ∀ x place, (.number x, place) ∈ listed.nodes .root → x.isFinite = true := by
      rintro x place hx
      simp only [listed, nodes, argumentNodes, List.mem_cons, List.mem_append, Prod.mk.injEq,
        reduceCtorEq, false_and, false_or, or_false, List.not_mem_nil, number.injEq] at hx
      rw [hx.1]
      decide +kernel
    rw [same.2 finite] at read
    exact ⟨by decide +kernel, read⟩
  · obtain ⟨again, read, -, same, -⟩ := parse_text_of_parse parse_nines
    refine ⟨again, read, fun unchanged => ?_⟩
    have finite := same.1 unchanged (.ofDigits nines) .root (nodes_self _ _)
    simp [nines_infinite] at finite

end Expr

end Gatekeeper
