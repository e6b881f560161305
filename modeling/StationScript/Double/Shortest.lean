import StationScript.Double

namespace StationScript.Double

-- A decimal: `digits` times ten to the `power`.
structure Decimal where
  digits : Nat
  power : Int
  deriving DecidableEq, Repr

namespace Decimal

-- The same decimal without zeros at the end of its digits.
def strip (fuel : Nat) (d : Decimal) : Decimal :=
  match fuel with
  | 0 => d
  | fuel + 1 => if d.digits != 0 && d.digits % 10 == 0 then strip fuel ⟨d.digits / 10, d.power + 1⟩ else d

end Decimal

-- The largest `k` with ten to the `k` at most `num / den`, searched downwards from `from`.
def decade (num den : Nat) : Nat → Int → Int
  | 0, start => start
  | fuel + 1, start =>
    if den * ten start ≤ num * ten (-start) then start else decade num den fuel (start - 1)

-- Whether a decimal rounds to the double: it lies between the midpoints towards the two neighbours, and a
-- midpoint itself goes to the even significand. Distances are counted in quarters of the last place; below a
-- power of two the neighbour is half as far away.
def roundsTo (m : Nat) (e : Int) (d : Decimal) : Bool :=
  let value := d.digits * ten d.power * two (2 - e)
  let unit := ten (-d.power) * two (e - 2)
  let low := (4 * m - if m == hiddenBit && e != -1074 then 1 else 2) * unit
  let high := (4 * m + 2) * unit
  if m % 2 == 0 then low ≤ value && value ≤ high else low < value && value < high

-- The distance of a decimal from the double, on a common scale for decimals of one power.
def distance (m : Nat) (e : Int) (d : Decimal) : Nat :=
  let value := d.digits * ten d.power * two (-e)
  let exact := m * ten (-d.power) * two e
  (value - exact) + (exact - value)

-- The decimal with at most `n` digits that rounds to the double and is nearest to it, if there is one: a
-- point of the grid next to the double on either side.
def onGrid (m : Nat) (e top : Int) (n : Nat) : Option Decimal :=
  let power := top - n + 1
  let (num, den) := quotient m e
  let floor := num * ten (-power) / (den * ten power)
  let below : Decimal := ⟨floor, power⟩
  let above : Decimal := ⟨floor + 1, power⟩
  match roundsTo m e below, roundsTo m e above with
  | true, true => some (if distance m e above < distance m e below then above else below)
  | true, false => some below
  | false, true => some above
  | false, false => none

-- The shortest decimal that rounds to the magnitude of a finite double. Seventeen digits always suffice.
def shortest (x : Double) : Decimal :=
  let m := x.significand
  let e := x.exponent
  if m = 0 then ⟨0, 0⟩
  else
    let (num, den) := quotient m e
    let top := decade num den 700 310
    match (List.range 17).findSome? (fun n => onGrid m e top (n + 1)) with
    | some d => d.strip 400
    | none => ⟨m, 0⟩

-- How a notation writes decimals.
structure Style where
  -- Positional from this place of the decimal point on …
  pointFrom : Int
  -- … up to this one, with an exponent elsewhere; the place is counted from the first digit.
  pointTo : Int
  deriving Repr

-- The text of a finite double's magnitude. Whole numbers end in `.0`; an exponent is written with its sign.
def Style.magnitudeText (n : Style) (d : Decimal) : String :=
  let digits := (Nat.repr d.digits).toList
  let point : Int := digits.length + d.power
  let zeros (k : Int) := List.replicate k.toNat '0'
  if d.digits = 0 then "0.0"
  else if n.pointFrom ≤ point && point ≤ n.pointTo then
    if point ≤ 0 then "0." ++ String.ofList (zeros (-point) ++ digits)
    else if (digits.length : Int) ≤ point then
      String.ofList (digits ++ zeros (point - digits.length)) ++ ".0"
    else
      String.ofList (digits.take point.toNat) ++ "." ++ String.ofList (digits.drop point.toNat)
  else
    let mantissa := match digits with
      | [] => ""
      | [c] => String.ofList [c]
      | c :: cs => String.ofList (c :: '.' :: cs)
    let power := point - 1
    mantissa ++ "e" ++ (if power < 0 then "-" else "+") ++ Nat.repr power.natAbs

def Style.text (n : Style) (x : Double) : String :=
  (if x.isNegative then "-" else "") ++ n.magnitudeText x.shortest

-- The notation of JSON numbers: an exponent from 10^16 on and below 10^-5.
def compact : Style :=
  ⟨-4, 16⟩

-- The notation of messages about settings: never an exponent.
def positional : Style :=
  ⟨-400, 400⟩

-- The text of any double in the notation without exponents.
def plainText (x : Double) : String :=
  if x.isNaN then "NaN"
  else if x.isInfinite then (if x.isNegative then "-inf" else "inf")
  else positional.text x

end StationScript.Double
