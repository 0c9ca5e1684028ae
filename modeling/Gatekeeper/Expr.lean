import Gatekeeper.Number.Shortest

/-!
# Expressions

The trees of the expression language, what kind of node each is, their comparison and their written
form. The type admits more trees than the grammar derives: any tree may stand as a callee, a
property or an argument, and every function below is defined on all of them.
-/

set_option autoImplicit false

namespace Gatekeeper

inductive Operator
  | equal
  | unequal
  deriving DecidableEq, Repr

def Operator.text : Operator → String
  | .equal => "=="
  | .unequal => "!="

inductive Expr
  | number (value : Number)
  | string (value : String)
  | identifier (name : String)
  | variable (name : String)
  | member (object property : Expr)
  | call (callee : Expr) (arguments : List Expr)
  | comparison (operator : Operator) (left right : Expr)
  deriving Repr, Inhabited

inductive NodeKind
  | number
  | string
  | identifier
  | variable
  | member
  | call
  | comparison
  deriving DecidableEq, Repr

def NodeKind.text : NodeKind → String
  | .number => "NumericLiteral"
  | .string => "StringLiteral"
  | .identifier => "Identifier"
  | .variable => "Variable"
  | .member => "MemberExpression"
  | .call => "CallExpression"
  | .comparison => "EqualityExpression"

namespace Expr

def kind : Expr → NodeKind
  | .number _ => .number
  | .string _ => .string
  | .identifier _ => .identifier
  | .variable _ => .variable
  | .member .. => .member
  | .call .. => .call
  | .comparison .. => .comparison

def identifier? : Expr → Option String
  | .identifier name => some name
  | _ => none

mutual

def same : Expr → Expr → Bool
  | .number x, .number y => x.same y
  | .string s, .string t => s == t
  | .identifier s, .identifier t => s == t
  | .variable s, .variable t => s == t
  | .member o p, .member o' p' => o.same o' && p.same p'
  | .call f xs, .call g ys => f.same g && allSame xs ys
  | .comparison op l r, .comparison op' l' r' => op == op' && l.same l' && r.same r'
  | _, _ => false

def allSame : List Expr → List Expr → Bool
  | [], [] => true
  | x :: xs, y :: ys => x.same y && allSame xs ys
  | _, _ => false

end

def stringChars (s : String) : List Char :=
  if s.toList.contains '\'' then '"' :: s.toList ++ ['"'] else '\'' :: s.toList ++ ['\'']

mutual

def chars : Expr → List Char
  | .number x => x.text.toList
  | .string s => stringChars s
  | .identifier name => name.toList
  | .variable name => '$' :: name.toList
  | .member object property => object.chars ++ '.' :: property.chars
  | .call callee arguments =>
    callee.chars ++ '(' :: List.intercalate [',', ' '] (allChars arguments) ++ [')']
  | .comparison operator left right =>
    left.chars ++ ' ' :: operator.text.toList ++ ' ' :: right.chars

def allChars : List Expr → List (List Char)
  | [] => []
  | e :: es => e.chars :: allChars es

end

def text (e : Expr) : String := String.ofList e.chars

end Expr

end Gatekeeper
