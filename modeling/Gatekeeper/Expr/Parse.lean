import Gatekeeper.Error

/-!
# Reading expressions

The grammar has one level of everything: an operand, then member steps, then at most one argument
list of operands, then at most one comparison with an operand. It is read from tokens alone, one
token ahead. A text whose scan is stuck has the lexical fault as its error exactly when the reader
gets through all tokens before the fault without rejecting one.
-/

set_option autoImplicit false

namespace Gatekeeper.Expr

def unquoted (s : String) : String := String.ofList (s.toList.drop 1).dropLast

def unsigiled (s : String) : String := String.ofList (s.toList.drop 1)

def ofToken? (t : Token) : Option Expr :=
  match t.kind with
  | .variable => some (.variable (unsigiled t.text))
  | .identifier => some (.identifier t.text)
  | .number => some (.number (Number.ofDigits t.text))
  | .string => some (.string (unquoted t.text))
  | _ => none

def operand (t : Token) : Except SyntaxFault Expr :=
  match ofToken? t with
  | some e => .ok e
  | none => .error (.unexpectedToken t .operand)

def readOperand : List Token → Except SyntaxFault (Expr × List Token)
  | [] => .error (.unexpectedEnd .operand)
  | t :: rest => do
    let e ← operand t
    return (e, rest)

def readSteps (object : Expr) : List Token → Except SyntaxFault (Expr × List Token)
  | [] => .ok (object, [])
  | t :: rest =>
    if t.kind = .dot then
      match rest with
      | [] => .error (.unexpectedEnd (.token .identifier))
      | name :: rest =>
        if name.kind = .identifier then readSteps (.member object (.identifier name.text)) rest
        else .error (.unexpectedToken name (.token .identifier))
    else .ok (object, t :: rest)

def readArgumentsAfter : List Token → Except SyntaxFault (List Expr × List Token)
  | [] => .error (.unexpectedEnd (.token .closeParen))
  | t :: rest =>
    if t.kind = .closeParen then .ok ([], rest)
    else if t.kind = .comma then
      match rest with
      | [] => .error (.unexpectedEnd .operand)
      | next :: rest => do
        let e ← operand next
        let (es, rest) ← readArgumentsAfter rest
        return (e :: es, rest)
    else .error (.unexpectedToken t (.token .closeParen))

def readArguments : List Token → Except SyntaxFault (List Expr × List Token)
  | [] => .error (.unexpectedEnd .operand)
  | t :: rest =>
    if t.kind = .closeParen then .ok ([], rest)
    else do
      let e ← operand t
      let (es, rest) ← readArgumentsAfter rest
      return (e :: es, rest)

def readCall (callee : Expr) : List Token → Except SyntaxFault (Expr × List Token)
  | [] => .ok (callee, [])
  | t :: rest =>
    if t.kind = .openParen then do
      let (arguments, rest) ← readArguments rest
      return (.call callee arguments, rest)
    else .ok (callee, t :: rest)

def operator? : TokenKind → Option Operator
  | .equality => some .equal
  | .inequality => some .unequal
  | _ => none

def readComparison (left : Expr) : List Token → Except SyntaxFault (Expr × List Token)
  | [] => .ok (left, [])
  | t :: rest =>
    match operator? t.kind with
    | some operator => do
      let (right, rest) ← readOperand rest
      return (.comparison operator left right, rest)
    | none => .ok (left, t :: rest)

def readExpression (tokens : List Token) : Except SyntaxFault (Expr × List Token) := do
  let (first, rest) ← readOperand tokens
  let (stepped, rest) ← readSteps first rest
  let (called, rest) ← readCall stepped rest
  readComparison called rest

def ofTokens (tokens : List Token) : Except SyntaxFault Expr := do
  match ← readExpression tokens with
  | (e, []) => return e
  | (_, t :: _) => throw (.unexpectedToken t .endOfInput)

def parse (source : String) : Except Error Expr :=
  let scanned := scan source
  match ofTokens scanned.tokens, scanned.fault with
  | .ok e, none => .ok e
  | .ok _, some fault => .error (.lexical fault)
  | .error (.unexpectedEnd _), some fault => .error (.lexical fault)
  | .error syntaxFault, _ => .error (.malformed syntaxFault source)

end Gatekeeper.Expr

namespace Gatekeeper

def tokenize (source : String) : Except Error (List Token) :=
  let scanned := scan source
  match scanned.fault with
  | none => .ok scanned.tokens
  | some fault => .error (.lexical fault)

end Gatekeeper
