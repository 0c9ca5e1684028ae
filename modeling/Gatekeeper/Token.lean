/-!
# Tokens

The ten kinds of token of the expression language, each with the spelling by which messages refer
to it, and the character classes that tokens are made of. A token keeps the exact slice of source it
came from, a string its quotes and a variable its sigil, and the byte offset of that slice.
-/

set_option autoImplicit false

namespace Gatekeeper

inductive TokenKind
  | comma
  | dot
  | openParen
  | closeParen
  | number
  | variable
  | equality
  | inequality
  | identifier
  | string
  deriving DecidableEq, Repr

def TokenKind.text : TokenKind → String
  | .comma => "','"
  | .dot => "'.'"
  | .openParen => "'('"
  | .closeParen => "')'"
  | .number => "NUMBER"
  | .variable => "VARIABLE"
  | .equality => "'=='"
  | .inequality => "'!='"
  | .identifier => "IDENTIFIER"
  | .string => "STRING"

structure Token where
  kind : TokenKind
  text : String
  offset : Nat
  deriving DecidableEq, Repr

def Token.shown (t : Token) : String := "\"" ++ t.text ++ "\""

def isWordChar (c : Char) : Bool := c.isAlphanum || c == '_'

def byteLength : List Char → Nat
  | [] => 0
  | c :: cs => c.utf8Size + byteLength cs

theorem byteLength_append (xs ys : List Char) :
    byteLength (xs ++ ys) = byteLength xs + byteLength ys := by
  induction xs with
  | nil => simp [byteLength]
  | cons x xs ih => rw [List.cons_append, byteLength, ih, byteLength, Nat.add_assoc]

end Gatekeeper
