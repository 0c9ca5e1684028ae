import Gatekeeper.Text.Numbered

/-!
# Quoted text in descriptions

A description writes a text between double quotes and escapes what would not show: a few controls
by letter, everything in the class of `Gatekeeper.Text.Numbered` by its number. Nothing here reads
such a text back.
-/

set_option autoImplicit false

namespace Gatekeeper

def escapedByNumber (c : Char) : List Char :=
  ['\\', 'u', '\x7b'] ++ Nat.toDigits 16 c.toNat ++ ['\x7d']

def escapedChar (c : Char) : List Char :=
  if c = '\x00' then ['\\', '0']
  else if c = '\t' then ['\\', 't']
  else if c = '\r' then ['\\', 'r']
  else if c = '\n' then ['\\', 'n']
  else if c = '"' ∨ c = '\\' then ['\\', c]
  else if isNumbered c then escapedByNumber c
  else [c]

def quoted (s : String) : String :=
  String.ofList (['"'] ++ s.toList.flatMap escapedChar ++ ['"'])

end Gatekeeper
