import Gatekeeper.Proofs.Expr.Complete
import Gatekeeper.Proofs.Token.Layout

/-!
# Reading one token at a time

Expressions are read from the tokens of a scan that has ended, and which of two errors is reported
is decided afterwards. A reader that pulls its tokens has no such choice: it looks at one token,
pulls the next only when it takes this one, and ends at the first pull that is stuck. Both come to
the same end on every text.
-/

set_option autoImplicit false

namespace Gatekeeper.Expr

structure Lookahead where
  token : Option Token
  after : Cursor

def look (c : Cursor) : Except Error Lookahead :=
  match c.next with
  | (.finished, after) => .ok ⟨none, after⟩
  | (.stuck fault, _) => .error (.lexical fault)
  | (.token t, after) => .ok ⟨some t, after⟩

namespace Lookahead

def size (s : Lookahead) : Nat :=
  match s.token with
  | none => 0
  | some _ => s.after.rest.length + 1

def looksAt (kind : TokenKind) (s : Lookahead) : Bool := s.token.any (·.kind = kind)

def take {α : Type} (source : String) (expected : Expected) (accept : Token → Option α)
    (s : Lookahead) : Except Error (α × Lookahead) :=
  match s.token with
  | none => .error (.malformed (.unexpectedEnd expected) source)
  | some t =>
    match accept t with
    | none => .error (.malformed (.unexpectedToken t expected) source)
    | some a => do
      let next ← look s.after
      return (a, next)

def ofKind? (kind : TokenKind) (t : Token) : Option Token := if t.kind = kind then some t else none

def eat (source : String) (kind : TokenKind) : Lookahead → Except Error (Token × Lookahead) :=
  take source (.token kind) (ofKind? kind)

def primary (source : String) : Lookahead → Except Error (Expr × Lookahead) :=
  take source .operand ofToken?

theorem look_size {c : Cursor} {s : Lookahead} (h : look c = .ok s) : s.size ≤ c.rest.length := by
  unfold look at h
  split at h
  · cases h
    exact Nat.zero_le _
  · cases h
  · rename_i t after pulled
    cases h
    exact Cursor.next_shorter pulled

theorem take_size {α : Type} {source : String} {expected : Expected} {accept : Token → Option α}
    {s next : Lookahead} {a : α} (h : s.take source expected accept = .ok (a, next)) :
    next.size < s.size := by
  obtain ⟨_ | t, after⟩ := s
  · cases h
  · dsimp only [take] at h
    split at h
    · cases h
    · obtain ⟨next', looked, same⟩ := bind_eq_ok.1 h
      cases same
      exact Nat.lt_succ_of_le (look_size looked)

/-- The value with what it is the value of, for readers that end because tokens are taken. -/
def known {α : Type} : (x : Except Error α) → Except Error { a : α // x = .ok a }
  | .ok a => .ok ⟨a, rfl⟩
  | .error e => .error e

def steps (source : String) (object : Expr) (s : Lookahead) : Except Error (Expr × Lookahead) :=
  if s.looksAt .dot then do
    let ⟨(_, s₁), _dot⟩ ← known (s.eat source .dot)
    let ⟨(name, s₂), _name⟩ ← known (s₁.eat source .identifier)
    steps source (.member object (.identifier name.text)) s₂
  else .ok (object, s)
termination_by s.size
decreasing_by exact Nat.lt_trans (take_size _name) (take_size _dot)

def further (source : String) (s : Lookahead) : Except Error (List Expr × Lookahead) :=
  if s.looksAt .comma then do
    let ⟨(_, s₁), _comma⟩ ← known (s.eat source .comma)
    let ⟨(e, s₂), _argument⟩ ← known (s₁.primary source)
    let (es, s₃) ← further source s₂
    return (e :: es, s₃)
  else .ok ([], s)
termination_by s.size
decreasing_by exact Nat.lt_trans (take_size _argument) (take_size _comma)

def argumentList (source : String) (s : Lookahead) : Except Error (List Expr × Lookahead) := do
  let (e, s) ← s.primary source
  let (es, s) ← s.further source
  return (e :: es, s)

def behind (source : String) (s : Lookahead) : Except Error (List Expr × Lookahead) := do
  let (es, s) ← s.further source
  let (_, s) ← s.eat source .closeParen
  return (es, s)

def inside (source : String) (s : Lookahead) : Except Error (List Expr × Lookahead) := do
  let (es, s) ← if s.looksAt .closeParen then .ok ([], s) else s.argumentList source
  let (_, s) ← s.eat source .closeParen
  return (es, s)

def arguments (source : String) (s : Lookahead) : Except Error (List Expr × Lookahead) := do
  let (_, s) ← s.eat source .openParen
  s.inside source

def call (source : String) (callee : Expr) (s : Lookahead) : Except Error (Expr × Lookahead) :=
  if s.looksAt .openParen then do
    let (es, s) ← s.arguments source
    return (.call callee es, s)
  else .ok (callee, s)

def comparison (source : String) (left : Expr) (s : Lookahead) :
    Except Error (Expr × Lookahead) :=
  match s.token.bind (operator? ·.kind) with
  | none => .ok (left, s)
  | some operator => do
    let s ← look s.after
    let (right, s) ← s.primary source
    return (.comparison operator left right, s)

def expression (source : String) (s : Lookahead) : Except Error (Expr × Lookahead) := do
  let (first, s) ← s.primary source
  let (stepped, s) ← s.steps source first
  let (called, s) ← s.call source stepped
  s.comparison source called

end Lookahead

def pulled (source : String) : Except Error Expr := do
  let s ← look (Cursor.start source)
  let (e, s) ← s.expression source
  match s.token with
  | none => return e
  | some t => throw (.malformed (.unexpectedToken t .endOfInput) source)

namespace Lookahead
open Grammar

/-! ## The tokens ahead -/

inductive Holds : Lookahead → List Token → Option LexicalFault → Prop
  | nothing (after : Cursor) : Holds ⟨none, after⟩ [] none
  | token (t : Token) {after : Cursor} {ts : List Token} {fault : Option LexicalFault}
      (later : after.scan = ⟨ts, fault⟩) : Holds ⟨some t, after⟩ (t :: ts) fault

theorem look_cases {c : Cursor} {ts : List Token} {fault : Option LexicalFault}
    (scanned : c.scan = ⟨ts, fault⟩) :
    (∃ s, look c = .ok s ∧ s.Holds ts fault) ∨
      ∃ f, look c = .error (.lexical f) ∧ ts = [] ∧ fault = some f := by
  unfold look
  split
  · rename_i after finished
    rw [Cursor.scan_finished finished] at scanned
    cases scanned
    exact .inl ⟨_, rfl, .nothing after⟩
  · rename_i f after stuck
    rw [Cursor.scan_stuck stuck] at scanned
    cases scanned
    exact .inr ⟨f, rfl, rfl, rfl⟩
  · rename_i t after pulled
    rw [Cursor.scan_token pulled] at scanned
    cases scanned
    exact .inl ⟨_, rfl, .token t rfl⟩

variable {α β : Type} {source : String} {fault : Option LexicalFault} {s : Lookahead}
  {ts : List Token}

inductive AtEnd : Except SyntaxFault (α × List Token) → Prop
  | content (a : α) : AtEnd (.ok (a, []))
  | asks (expected : Expected) : AtEnd (.error (.unexpectedEnd expected))

/-- The outcome of a reader that has all tokens, and that of one that pulls them, which is cut off
where the first has come to the end of the tokens before a fault. -/
inductive Mirrors (source : String) (fault : Option LexicalFault) :
    Except SyntaxFault (α × List Token) → Except Error (α × Lookahead) → Prop
  | read (a : α) {rest : List Token} {s : Lookahead} (holds : s.Holds rest fault) :
      Mirrors source fault (.ok (a, rest)) (.ok (a, s))
  | cut {x : Except SyntaxFault (α × List Token)} {f : LexicalFault} (faulty : fault = some f)
      (ends : AtEnd x) : Mirrors source fault x (.error (.lexical f))
  | missing (expected : Expected) (faultless : fault = none) : Mirrors source fault
      (.error (.unexpectedEnd expected)) (.error (.malformed (.unexpectedEnd expected) source))
  | refused (t : Token) (expected : Expected) : Mirrors source fault
      (.error (.unexpectedToken t expected))
      (.error (.malformed (.unexpectedToken t expected) source))

theorem AtEnd.bind {x : Except SyntaxFault (α × List Token)}
    {next : α × List Token → Except SyntaxFault (β × List Token)} (ends : AtEnd x)
    (later : ∀ a, AtEnd (next (a, []))) : AtEnd (x >>= next) := by
  cases ends with
  | content a => exact later a
  | asks expected => exact .asks expected

theorem Mirrors.bind {x : Except SyntaxFault (α × List Token)} {y : Except Error (α × Lookahead)}
    {next : α × List Token → Except SyntaxFault (β × List Token)}
    {next' : α × Lookahead → Except Error (β × Lookahead)} (first : Mirrors source fault x y)
    (second : ∀ a rest s, y = .ok (a, s) → s.Holds rest fault →
      Mirrors source fault (next (a, rest)) (next' (a, s)))
    (ends : ∀ a, AtEnd (next (a, []))) : Mirrors source fault (x >>= next) (y >>= next') := by
  cases first with
  | read a holds => exact second a _ _ rfl holds
  | cut faulty atEnd => exact .cut faulty (atEnd.bind ends)
  | missing expected faultless => exact .missing expected faultless
  | refused t expected => exact .refused t expected

theorem Mirrors.map {x : Except SyntaxFault (α × List Token)} {y : Except Error (α × Lookahead)}
    (f : α → β) (h : Mirrors source fault x y) :
    Mirrors source fault (x >>= fun found => .ok (f found.1, found.2))
      (y >>= fun found => .ok (f found.1, found.2)) :=
  h.bind (fun a _ _ _ holds => .read (f a) holds) fun a => .content (f a)

def pick (expected : Expected) (accept : Token → Option α) :
    List Token → Except SyntaxFault (α × List Token)
  | [] => .error (.unexpectedEnd expected)
  | t :: rest =>
    match accept t with
    | none => .error (.unexpectedToken t expected)
    | some a => .ok (a, rest)

theorem take_mirrors (expected : Expected) (accept : Token → Option α) (holds : s.Holds ts fault) :
    Mirrors source fault (pick expected accept ts) (s.take source expected accept) := by
  cases holds with
  | nothing after => exact .missing expected rfl
  | @token t after ts fault later =>
    dsimp only [pick, take]
    split
    · exact .refused t expected
    · rename_i a _
      rcases look_cases later with ⟨next, looked, holds⟩ | ⟨f, stuck, rfl, faulty⟩
      · rw [looked]
        exact .read a holds
      · rw [stuck]
        exact .cut faulty (.content a)

/-! ## The readers -/

theorem Holds.looksAt {kind : TokenKind} (holds : s.Holds ts fault) :
    s.looksAt kind = true ↔ ∃ t rest, ts = t :: rest ∧ t.kind = kind := by
  cases holds <;> simp [Lookahead.looksAt]

theorem pick_ofKind {kind : TokenKind} {t : Token} (isKind : t.kind = kind) (rest : List Token) :
    pick (.token kind) (ofKind? kind) (t :: rest) = .ok (t, rest) := by
  simp [pick, ofKind?, isKind]

theorem readOperand_eq (ts : List Token) : readOperand ts = pick .operand ofToken? ts := by
  cases ts with
  | nil => rfl
  | cons t rest =>
    rw [readOperand, operand, pick]
    cases ofToken? t <;> rfl

theorem primary_mirrors (holds : s.Holds ts fault) :
    Mirrors source fault (readOperand ts) (s.primary source) := by
  rw [readOperand_eq]
  exact take_mirrors .operand ofToken? holds

theorem known_bind (x : Except Error α) (next : α → Except Error β) :
    (known x >>= fun a => next a.1) = x >>= next := by
  cases x <;> rfl

theorem steps_dot {object : Expr} (dot : s.looksAt .dot = true) : s.steps source object =
    s.eat source .dot >>= fun dot => dot.2.eat source .identifier >>= fun name =>
      name.2.steps source (.member object (.identifier name.1.text)) := by
  rw [steps, if_pos dot, ← known_bind (s.eat source .dot)]
  refine bind_congr fun dot => ?_
  rw [← known_bind (dot.1.2.eat source .identifier)]

theorem further_comma (comma : s.looksAt .comma = true) : s.further source =
    s.eat source .comma >>= fun comma => comma.2.primary source >>= fun e =>
      e.2.further source >>= fun es => .ok (e.1 :: es.1, es.2) := by
  rw [further, if_pos comma, ← known_bind (s.eat source .comma)]
  refine bind_congr fun comma => ?_
  rw [← known_bind (comma.1.2.primary source)]
  rfl

theorem readSteps_dot {t : Token} (isDot : t.kind = .dot) (object : Expr) (rest : List Token) :
    readSteps object (t :: rest) =
      pick (.token .dot) (ofKind? .dot) (t :: rest) >>= fun dot =>
        pick (.token .identifier) (ofKind? .identifier) dot.2 >>= fun name =>
          readSteps (.member object (.identifier name.1.text)) name.2 := by
  rw [pick_ofKind isDot]
  cases rest with
  | nil =>
    simp only [readSteps, isDot, if_true]
    rfl
  | cons name rest =>
    show _ = pick (.token .identifier) (ofKind? .identifier) (name :: rest) >>= _
    simp only [readSteps, isDot, if_true, pick, ofKind?]
    split <;> rfl

theorem Holds.lacks {kind : TokenKind} (holds : s.Holds ts fault)
    (other : ¬ s.looksAt kind = true) : Lacks kind ts := by
  intro t ht isKind
  obtain ⟨rest, rfl⟩ := List.head?_eq_some_iff.1 ht
  exact other (holds.looksAt.2 ⟨t, rest, rfl, isKind⟩)

theorem steps_mirrors (object : Expr) {s : Lookahead} {ts : List Token}
    (holds : s.Holds ts fault) :
    Mirrors source fault (readSteps object ts) (s.steps source object) := by
  by_cases dot : s.looksAt .dot = true
  · obtain ⟨t, rest, rfl, isDot⟩ := holds.looksAt.1 dot
    rw [steps_dot dot, readSteps_dot isDot]
    apply (take_mirrors _ _ holds).bind
    case ends => exact fun _ => .asks _
    intro _ rest s₁ _dot holds₁
    apply (take_mirrors _ _ holds₁).bind
    case ends => exact fun _ => .content _
    intro name rest s₂ _name holds₂
    exact steps_mirrors _ holds₂
  · rw [steps, if_neg dot, readSteps_end object (holds.lacks dot)]
    exact .read object holds
termination_by s.size
decreasing_by exact Nat.lt_trans (take_size _name) (take_size _dot)

theorem behind_comma (comma : s.looksAt .comma = true) : s.behind source =
    s.eat source .comma >>= fun comma => comma.2.primary source >>= fun e =>
      e.2.behind source >>= fun es => .ok (e.1 :: es.1, es.2) := by
  rw [behind, further_comma comma]
  simp only [behind, bind_assoc]
  rfl

theorem readArgumentsAfter_comma {t : Token} (isComma : t.kind = .comma) (rest : List Token) :
    readArgumentsAfter (t :: rest) =
      pick (.token .comma) (ofKind? .comma) (t :: rest) >>= fun comma =>
        readOperand comma.2 >>= fun e =>
          readArgumentsAfter e.2 >>= fun es => .ok (e.1 :: es.1, es.2) := by
  rw [pick_ofKind isComma]
  cases rest with
  | nil =>
    simp only [readArgumentsAfter, isComma, reduceCtorEq, if_false, if_true]
    rfl
  | cons next rest =>
    show _ = readOperand (next :: rest) >>= _
    simp only [readArgumentsAfter, isComma, reduceCtorEq, if_false, if_true, readOperand]
    cases operand next <;> rfl

theorem readArgumentsAfter_last (stop : Lacks .comma ts) : readArgumentsAfter ts =
    pick (.token .closeParen) (ofKind? .closeParen) ts >>= fun close => .ok ([], close.2) := by
  cases ts with
  | nil => rfl
  | cons t rest =>
    rw [readArgumentsAfter.eq_def, pick, ofKind?]
    simp only [stop t rfl, if_false]
    split <;> rfl

theorem behind_mirrors {s : Lookahead} {ts : List Token} (holds : s.Holds ts fault) :
    Mirrors source fault (readArgumentsAfter ts) (s.behind source) := by
  by_cases comma : s.looksAt .comma = true
  · obtain ⟨t, rest, rfl, isComma⟩ := holds.looksAt.1 comma
    rw [behind_comma comma, readArgumentsAfter_comma isComma]
    apply (take_mirrors _ _ holds).bind
    case ends => exact fun _ => .asks _
    intro _ rest s₁ _comma holds₁
    apply (primary_mirrors holds₁).bind
    case ends => exact fun _ => .asks _
    intro e rest s₂ _argument holds₂
    exact (behind_mirrors holds₂).map (e :: ·)
  · rw [behind, further, if_neg comma, readArgumentsAfter_last (holds.lacks comma)]
    exact (take_mirrors _ _ holds).map fun _ => []
termination_by s.size
decreasing_by exact Nat.lt_trans (take_size _argument) (take_size _comma)

theorem inside_close (close : s.looksAt .closeParen = true) : s.inside source =
    s.eat source .closeParen >>= fun close => .ok ([], close.2) := by
  rw [inside, if_pos close]
  rfl

theorem inside_argument (other : ¬ s.looksAt .closeParen = true) : s.inside source =
    s.primary source >>= fun e => e.2.behind source >>= fun es => .ok (e.1 :: es.1, es.2) := by
  rw [inside, if_neg other]
  simp only [argumentList, behind, bind_assoc]
  rfl

theorem readArguments_close {t : Token} (isClose : t.kind = .closeParen) (rest : List Token) :
    readArguments (t :: rest) = pick (.token .closeParen) (ofKind? .closeParen) (t :: rest) >>=
      fun close => .ok ([], close.2) := by
  rw [readArguments, if_pos isClose, pick_ofKind isClose]
  rfl

theorem readArguments_argument (other : Lacks .closeParen ts) : readArguments ts =
    readOperand ts >>= fun e => readArgumentsAfter e.2 >>= fun es => .ok (e.1 :: es.1, es.2) := by
  cases ts with
  | nil => rfl
  | cons t rest =>
    rw [readArguments, if_neg (other t rfl), readOperand]
    cases operand t <;> rfl

theorem inside_mirrors (holds : s.Holds ts fault) :
    Mirrors source fault (readArguments ts) (s.inside source) := by
  by_cases close : s.looksAt .closeParen = true
  · obtain ⟨t, rest, rfl, isClose⟩ := holds.looksAt.1 close
    rw [inside_close close, readArguments_close isClose]
    exact (take_mirrors _ _ holds).map fun _ => []
  · rw [inside_argument close, readArguments_argument (holds.lacks close)]
    apply (primary_mirrors holds).bind
    case ends => exact fun _ => .asks _
    intro e rest s₁ _ holds₁
    exact (behind_mirrors holds₁).map (e :: ·)

theorem call_open {callee : Expr} (opens : s.looksAt .openParen = true) : s.call source callee =
    s.eat source .openParen >>= fun opening => opening.2.inside source >>= fun es =>
      .ok (.call callee es.1, es.2) := by
  rw [call, if_pos opens]
  simp only [arguments, bind_assoc]
  rfl

theorem readCall_open {t : Token} (isOpen : t.kind = .openParen) (callee : Expr)
    (rest : List Token) : readCall callee (t :: rest) =
      pick (.token .openParen) (ofKind? .openParen) (t :: rest) >>= fun opening =>
        readArguments opening.2 >>= fun es => .ok (.call callee es.1, es.2) := by
  rw [readCall, if_pos isOpen, pick_ofKind isOpen]
  rfl

theorem call_mirrors (callee : Expr) (holds : s.Holds ts fault) :
    Mirrors source fault (readCall callee ts) (s.call source callee) := by
  by_cases opens : s.looksAt .openParen = true
  · obtain ⟨t, rest, rfl, isOpen⟩ := holds.looksAt.1 opens
    rw [call_open opens, readCall_open isOpen]
    apply (take_mirrors _ _ holds).bind
    case ends => exact fun _ => .asks _
    intro _ rest s₁ _ holds₁
    exact (inside_mirrors holds₁).map (Expr.call callee)
  · rw [call, if_neg opens, readCall_end callee (holds.lacks opens)]
    exact .read callee holds

theorem comparison_mirrors (left : Expr) (holds : s.Holds ts fault) :
    Mirrors source fault (readComparison left ts) (s.comparison source left) := by
  cases holds with
  | nothing after => exact .read left (.nothing after)
  | @token t after ts fault later =>
    rw [readComparison, comparison]
    dsimp only [Option.bind_some]
    cases operator? t.kind with
    | none => exact .read left (.token t later)
    | some operator =>
      rcases look_cases later with ⟨next, looked, holds⟩ | ⟨f, stuck, rfl, faulty⟩
      · rw [looked]
        exact (primary_mirrors holds).map (Expr.comparison operator left)
      · rw [stuck]
        exact .cut faulty (.asks .operand)

theorem expression_mirrors (holds : s.Holds ts fault) :
    Mirrors source fault (readExpression ts) (s.expression source) := by
  rw [readExpression_eq, bind_assoc]
  apply (primary_mirrors holds).bind
  case ends => exact fun e => .content e
  intro first rest s₁ _ holds₁
  apply (steps_mirrors first holds₁).bind
  case ends => exact fun e => .content e
  intro stepped rest s₂ _ holds₂
  apply (call_mirrors stepped holds₂).bind
  case ends => exact fun e => .content e
  intro called rest s₃ _ holds₃
  exact comparison_mirrors called holds₃

end Lookahead

open Lookahead in
/-- Reading behind a scan and reading what is pulled have the same outcome, the error included. -/
theorem pulled_eq_parse (source : String) : pulled source = parse source := by
  rw [pulled, parse, scan]
  generalize scanned : (Cursor.start source).scan = found
  obtain ⟨ts, fault⟩ := found
  rcases look_cases scanned with ⟨s, looked, holds⟩ | ⟨f, stuck, rfl, rfl⟩
  · have mirrors : Mirrors source fault _ _ := expression_mirrors holds
    rw [looked]
    show s.expression source >>= _ = _
    dsimp only [ofTokens]
    generalize readExpression ts = eager at mirrors ⊢
    generalize s.expression source = lazy at mirrors ⊢
    cases mirrors with
    | read e holds =>
      cases holds with
      | nothing after => rfl
      | token t later => cases fault <;> rfl
    | cut faulty ends =>
      subst faulty
      cases ends <;> rfl
    | missing expected faultless =>
      subst faultless
      rfl
    | refused t expected => cases fault <;> rfl
  · rw [stuck]
    rfl

end Gatekeeper.Expr
