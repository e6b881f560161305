import StationScript.Double.Fixed

namespace StationScript

inductive Scale
  | pico
  | nano
  | micro
  | milli
  | one
  deriving DecidableEq, Repr

namespace Scale

def symbol : Scale → String
  | pico => "p"
  | nano => "n"
  | micro => "u"
  | milli => "m"
  | one => ""

-- A value is shown as so many of the prefixed units: ten to this power of them make one unit.
def power : Scale → Nat
  | pico => 12
  | nano => 9
  | micro => 6
  | milli => 3
  | one => 0

-- The scale for a value: each band reaches up to, and does not include, the next larger prefix, where the
-- limits are the doubles nearest to the powers of ten. A NaN belongs to no band and is left unscaled.
def ofValue (value : Double) : Scale :=
  if value.absLt (.nearest false 1 1000000000) then pico
  else if value.absLt (.nearest false 1 1000000) then nano
  else if value.absLt (.nearest false 1 1000) then micro
  else if value.absLt (.ofNat 1) then milli
  else one

def apply (s : Scale) (value : Double) : Double :=
  match s with
  | one => value
  | s => value.mul (.ofNat (Double.ten s.power))

end Scale

namespace Reading

-- What stands in place of a value that is missing.
def missing : String :=
  "null"

-- A value with three decimal places, its prefix and its unit.
def engineering (value : Double) (unit : String) : String :=
  let scale := Scale.ofValue value
  (scale.apply value).fixed 3 ++ " " ++ scale.symbol ++ unit

-- A channel's value as text; a NaN is a missing value.
def text (value : Double) (unit : String) : String :=
  if value.isNaN then missing else engineering value unit

end Reading

end StationScript
