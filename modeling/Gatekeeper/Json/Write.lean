import Gatekeeper.Json

/-!
# Writing JSON

The layout of stored documents: two spaces a level, one element or member a line, nothing between
the brackets of an empty container. Strings escape what must be escaped and no more.
-/

set_option autoImplicit false

namespace Gatekeeper.Json

def hexDigit (n : Nat) : Char := (Nat.toDigits 16 n).headD '0'

def escapedChar (c : Char) : List Char :=
  if c = '"' then ['\\', '"']
  else if c = '\\' then ['\\', '\\']
  else if c = '\x08' then ['\\', 'b']
  else if c = '\x0c' then ['\\', 'f']
  else if c = '\n' then ['\\', 'n']
  else if c = '\r' then ['\\', 'r']
  else if c = '\t' then ['\\', 't']
  else if c.toNat < 0x20 then
    ['\\', 'u', '0', '0', hexDigit (c.toNat / 16), hexDigit (c.toNat % 16)]
  else [c]

def stringChars (s : String) : List Char := '"' :: s.toList.flatMap escapedChar ++ ['"']

def lineStart (level : Nat) : List Char := '\n' :: List.replicate (2 * level) ' '

mutual

def chars (level : Nat) : Json → List Char
  | .null => ['n', 'u', 'l', 'l']
  | .bool true => ['t', 'r', 'u', 'e']
  | .bool false => ['f', 'a', 'l', 's', 'e']
  | .number literal => literal.toList
  | .string text => stringChars (text.getD "")
  | .array [] => ['[', ']']
  | .array (e :: es) =>
    '[' :: lineStart (level + 1) ++ chars (level + 1) e ++ elementsChars level es
  | .object [] => ['\x7b', '\x7d']
  | .object ((k, e) :: ms) =>
    '\x7b' :: lineStart (level + 1) ++ stringChars (k.getD "") ++ ':' :: ' ' ::
      chars (level + 1) e ++ membersChars level ms

def elementsChars (level : Nat) : List Json → List Char
  | [] => lineStart level ++ [']']
  | e :: es => ',' :: lineStart (level + 1) ++ chars (level + 1) e ++ elementsChars level es

def membersChars (level : Nat) : List (Option String × Json) → List Char
  | [] => lineStart level ++ ['\x7d']
  | (k, e) :: ms =>
    ',' :: lineStart (level + 1) ++ stringChars (k.getD "") ++ ':' :: ' ' ::
      chars (level + 1) e ++ membersChars level ms

end

def write (j : Json) : String := String.ofList (j.chars 0)

end Gatekeeper.Json
