/-!
# Numbers

A number is a binary64 value, held as its bit pattern: one sign bit, eleven exponent bits and
fifty-two fraction bits. The engine only compares numbers, reads them from digits and writes them,
so this module holds equality and rounding to the nearest number; writing is in
`Gatekeeper.Number.Shortest`. There is no arithmetic on numbers.
-/

set_option autoImplicit false

namespace Gatekeeper

structure Number where
  bits : UInt64
  deriving DecidableEq, Repr, Inhabited

namespace Number

def signWeight : Nat := 0x8000000000000000

def exponentWeight : Nat := 0x10000000000000

/-- Every finite number is a whole multiple of two to the power of minus this. -/
def finestScale : Nat := 1074

def isNegative (x : Number) : Bool := decide (signWeight ≤ x.bits.toNat)

def magnitudeBits (x : Number) : Nat := x.bits.toNat % signWeight

def infinityBits : Nat := 2047 * exponentWeight

def infinity : Number := ⟨UInt64.ofNat infinityBits⟩

def isNaN (x : Number) : Bool := decide (infinityBits < x.magnitudeBits)

def isInfinite (x : Number) : Bool := decide (x.magnitudeBits = infinityBits)

def isFinite (x : Number) : Bool := decide (x.magnitudeBits < infinityBits)

def same (x y : Number) : Bool :=
  !x.isNaN && !y.isNaN &&
    (decide (x.bits = y.bits) || (decide (x.magnitudeBits = 0) && decide (y.magnitudeBits = 0)))

/-- A finite number is its significand, times two to the power of its scale, divided by two to the
power of `finestScale`, up to sign. -/
def significand (x : Number) : Nat :=
  if x.magnitudeBits < exponentWeight then x.magnitudeBits
  else exponentWeight + x.magnitudeBits % exponentWeight

def scale (x : Number) : Nat := x.magnitudeBits / exponentWeight - 1

def roundHalfEven (num den : Nat) : Nat :=
  let q := num / den
  let r := num % den
  if 2 * r < den then q
  else if den < 2 * r then q + 1
  else q + q % 2 -- a tie goes to the even neighbour

-- At this scale a quotient has at most fifty-three binary digits before its point.
def scaleOf (num den : Nat) : Nat := Nat.log2 (num / den) - 52

/-- The non-negative number nearest to a quotient. A carry out of the fraction field moves to the
next exponent, and what is too large becomes infinite. -/
def ofQuotient (num den : Nat) : Number :=
  let scaled := num * Nat.pow 2 finestScale
  let scale := scaleOf scaled den
  let significand := roundHalfEven scaled (den * Nat.pow 2 scale)
  ⟨UInt64.ofNat (min (scale * exponentWeight + significand) infinityBits)⟩

def ofNat (n : Nat) : Number := ofQuotient n 1

def negate (x : Number) : Number :=
  ⟨UInt64.ofNat (if x.isNegative then x.magnitudeBits else signWeight + x.magnitudeBits)⟩

def ofDigits (digits : String) : Number := ofNat (Nat.ofDigitChars 10 digits.toList 0)

end Number

end Gatekeeper
