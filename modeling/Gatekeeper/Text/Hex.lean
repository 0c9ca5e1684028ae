/-!
# Hexadecimal digits

The value of hexadecimal digits in either case. Other characters count as zero here, so callers test
for `Char.isHexDigit` first. Decimal digits are read by `Nat.ofDigitChars`.
-/

set_option autoImplicit false

namespace Gatekeeper

def hexDigitValue (c : Char) : Nat :=
  if c.isDigit then c.toNat - '0'.toNat
  else if 'a' ≤ c ∧ c ≤ 'f' then c.toNat - 'a'.toNat + 10
  else if 'A' ≤ c ∧ c ≤ 'F' then c.toNat - 'A'.toNat + 10
  else 0

def hexValue (cs : List Char) : Nat := cs.foldl (fun n c => 16 * n + hexDigitValue c) 0

end Gatekeeper
