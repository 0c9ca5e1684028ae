/-!
# Durations in messages

A duration is counted in milliseconds and written in the largest unit of which it has at least one,
seconds with as many decimal places as they need. No duration at all is written in the smallest
unit.
-/

set_option autoImplicit false

namespace Gatekeeper

def placesOfThousandths (n : Nat) : List Char :=
  let digits := Nat.toDigits 10 (1000 + n)
  ((digits.drop 1).reverse.dropWhile (· == '0')).reverse

def durationText (milliseconds : Nat) : String :=
  if milliseconds = 0 then "0ns"
  else if milliseconds < 1000 then toString milliseconds ++ "ms"
  else
    let places := placesOfThousandths (milliseconds % 1000)
    let whole := toString (milliseconds / 1000)
    if places.isEmpty then whole ++ "s" else whole ++ "." ++ String.ofList places ++ "s"

end Gatekeeper
