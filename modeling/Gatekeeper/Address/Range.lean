import Gatekeeper.Address
import Gatekeeper.Text.Blank

/-!
# Address ranges

A range is a network address with the number of leading bits that count, all of them if none is
given. An address belongs to a range if it agrees with the network in those bits; across the
families the older is taken into the newer as its mapped form, and back. A text that is no address
or no range matches nothing.
-/

set_option autoImplicit false

namespace Gatekeeper

structure AddressRange where
  network : Address
  bits : Option Nat
  deriving DecidableEq, Repr

namespace AddressRange

def bits? (cs : List Char) : Option Nat :=
  let digits := match cs with
    | '+' :: rest => rest
    | _ => cs
  if digits.isEmpty || !digits.all Char.isDigit then none
  else
    let value := Nat.ofDigitChars 10 digits 0
    if 255 < value then none else some value

def ofChars? (cs : List Char) : Option AddressRange := do
  let cs := trimBlanks cs
  let network ← Address.ofChars? (trimBlanks (cs.takeWhile (· != '/')))
  match cs.dropWhile (· != '/') with
  | [] => return ⟨network, none⟩
  | _ :: rest => return ⟨network, some (← bits? (trimBlanks rest))⟩

def agree {width : Nat} (a n : BitVec width) (bits : Option Nat) : Bool :=
  let counted := bits.getD width
  if width < counted then false
  else
    -- Where no bit counts the shift is by the whole width and leaves a mask of zeros.
    let mask := BitVec.allOnes width <<< (width - counted)
    a &&& mask == n &&& mask

def contains (range : AddressRange) (address : Address) : Bool :=
  match address, range.network with
  | .v4 a, .v4 n => agree a n range.bits
  | .v6 a, .v6 n => agree a n range.bits
  | .v6 a, .v4 n =>
    match Address.unmapped? a with
    | some a => agree a n range.bits
    | none => false
  | .v4 a, .v6 n => agree (Address.mapped a) n range.bits

end AddressRange

def inAddressRange (address range : String) : Bool :=
  match Address.ofChars? (trimBlanks address.toList), AddressRange.ofChars? range.toList with
  | some address, some range => range.contains address
  | _, _ => false

end Gatekeeper
