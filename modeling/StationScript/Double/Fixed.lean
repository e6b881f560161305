import StationScript.Double
import StationScript.Text.Padding

namespace StationScript.Double

-- The number of thousandths (for three places) nearest to the magnitude of a finite double.
def scaledMagnitude (places : Nat) (x : Double) : Nat :=
  let (num, den) := quotient x.significand x.exponent
  Rounding.halfEven (num * ten places) den

-- A double with a fixed, positive number of decimal places. The sign is written whenever it is set, also in
-- front of a zero.
def fixed (places : Nat) (x : Double) : String :=
  if x.isNaN then "NaN"
  else
    let sign := if x.isNegative then "-" else ""
    if x.isInfinite then sign ++ "inf"
    else
      let n := scaledMagnitude places x
      sign ++ Nat.repr (n / ten places) ++ "." ++ Text.padded places (n % ten places)

end StationScript.Double
