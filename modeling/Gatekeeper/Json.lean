/-!
# JSON trees

A JSON text as a tree that keeps what the text says: a number is its literal, an object its members
in order with repetitions. Reading and writing are in `Gatekeeper.Json.Read` and
`Gatekeeper.Json.Write`.
-/

set_option autoImplicit false

namespace Gatekeeper

inductive Json
  | null
  | bool (value : Bool)
  | number (literal : String)
  /-- A string whose escapes leave half of a surrogate pair alone holds no text. -/
  | string (text : Option String)
  | array (elements : List Json)
  | object (members : List (Option String × Json))
  deriving Repr, Inhabited

namespace Json

def nat? : Json → Option Nat
  | .number literal =>
    if literal.toList.all Char.isDigit then
      some (Nat.ofDigitChars 10 literal.toList 0)
    else none
  | _ => none

def text? : Json → Option String
  | .string text => text
  | _ => none

def array? : Json → Option (List Json)
  | .array elements => some elements
  | _ => none

def ofNat (n : Nat) : Json := .number (toString n)

def ofText (s : String) : Json := .string (some s)

def ofMembers (members : List (String × Json)) : Json :=
  .object (members.map fun m => (some m.1, m.2))

end Json

end Gatekeeper
