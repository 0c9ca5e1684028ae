import Gatekeeper.Number

/-!
# Writing numbers

A number is written with the fewest decimal digits that read back to it, and of those the digits
nearest to it; of two equally near the upper one. It is always positional: no exponent, zeros
filling up to the point, no point in a whole number. Candidates are tried against reading itself,
so that whatever is written reads back by construction.
-/

set_option autoImplicit false

namespace Gatekeeper.Number

structure Decimal where
  coefficient : Nat
  exponent : Int
  deriving DecidableEq, Repr

def perPowerOfTen (num den : Nat) (exponent : Int) : Nat × Nat :=
  match exponent with
  | .ofNat k => (num, den * Nat.pow 10 k)
  | .negSucc k => (num * Nat.pow 10 (k + 1), den)

def Decimal.toNumber (d : Decimal) : Number :=
  match d.exponent with
  | .ofNat k => ofQuotient (d.coefficient * Nat.pow 10 k) 1
  | .negSucc k => ofQuotient d.coefficient (Nat.pow 10 (k + 1))

def quotient (x : Number) : Nat × Nat :=
  if finestScale ≤ x.scale then (x.significand * Nat.pow 2 (x.scale - finestScale), 1)
  else (x.significand, Nat.pow 2 (finestScale - x.scale))

def decimalLength (n : Nat) : Nat := (Nat.toDigits 10 n).length

def leadingPower (num den : Nat) : Int :=
  if den ≤ num then Int.ofNat (decimalLength (num / den))
  else 1 - Int.ofNat (decimalLength ((den - 1) / num))

/-- Of the two neighbours of `num / den` on the grid of a power of ten, those that read back to
`x`, and of both the nearer. -/
def onGrid? (x : Number) (num den : Nat) (exponent : Int) : Option Decimal :=
  let (n, d) := perPowerOfTen num den exponent
  let below : Decimal := ⟨n / d, exponent⟩
  let above : Decimal := ⟨n / d + 1, exponent⟩
  match decide (below.toNumber = x), decide (above.toNumber = x) with
  -- Both are as short; the tie goes up.
  | true, true => if 2 * (n % d) < d then some below else some above
  | true, false => some below
  | false, true => some above
  | false, false => none

def search (x : Number) (num den : Nat) (exponent : Int) : Nat → Option Decimal
  | 0 => none
  | tries + 1 =>
    match onGrid? x num den exponent with
    | some d => some d
    | none => search x num den (exponent - 1) tries

def exact (x : Number) : Decimal :=
  if finestScale ≤ x.scale then ⟨x.significand * Nat.pow 2 (x.scale - finestScale), 0⟩
  else
    ⟨x.significand * Nat.pow 5 (finestScale - x.scale), Int.negOfNat (finestScale - x.scale)⟩

/-- Seventeen digits tell any two numbers apart, so the search succeeds on the eighteenth grid at
the latest. -/
def shortest (x : Number) : Decimal :=
  let (num, den) := x.quotient
  (search x num den (leadingPower num den) 18).getD x.exact

def zeros (n : Nat) : List Char := List.replicate n '0'

def Decimal.chars (d : Decimal) : List Char :=
  let digits := Nat.toDigits 10 d.coefficient
  match d.exponent with
  | .ofNat k => digits ++ zeros k
  | .negSucc k =>
    let places := k + 1
    if digits.length ≤ places then ['0', '.'] ++ zeros (places - digits.length) ++ digits
    else digits.take (digits.length - places) ++ ['.'] ++ digits.drop (digits.length - places)

def magnitudeChars (x : Number) : List Char :=
  if x.magnitudeBits = 0 then ['0']
  else (shortest ⟨UInt64.ofNat x.magnitudeBits⟩).chars

def text (x : Number) : String :=
  if x.isNaN then "NaN"
  else
    let sign := if x.isNegative then ['-'] else []
    let body := if x.isInfinite then ['i', 'n', 'f'] else x.magnitudeChars
    String.ofList (sign ++ body)

end Gatekeeper.Number
