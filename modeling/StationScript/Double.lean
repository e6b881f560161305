import StationScript.Rounding

namespace StationScript

-- A double, given by its 64 bits: sign, eleven bits of exponent, 52 bits of fraction.
structure Double where
  bits : UInt64
  deriving DecidableEq, Repr

namespace Double

-- Two to the `k`; one for a `k` below zero.
def two (k : Int) : Nat :=
  Nat.pow 2 k.toNat

-- Ten to the `k`; one for a `k` below zero.
def ten (k : Int) : Nat :=
  Nat.pow 10 k.toNat

-- What the sign adds to the bits.
def signBit : Nat :=
  two 63

-- What one step of the exponent adds to the bits, and what the bit that is not written adds to a
-- significand.
def hiddenBit : Nat :=
  two 52

-- The bits without the sign. Doubles of one sign are ordered as these numbers are.
def magnitude (x : Double) : Nat :=
  x.bits.toNat % signBit

def isNegative (x : Double) : Bool :=
  signBit ≤ x.bits.toNat

-- The magnitude of the infinities: above all finite ones, below those of the NaNs.
def infinityMagnitude : Nat :=
  2047 * hiddenBit

def isNaN (x : Double) : Bool :=
  infinityMagnitude < x.magnitude

def isInfinite (x : Double) : Bool :=
  x.magnitude == infinityMagnitude

def isFinite (x : Double) : Bool :=
  x.magnitude < infinityMagnitude

-- A finite double is its significand times two to its exponent, with its sign.
def significand (x : Double) : Nat :=
  if x.magnitude / hiddenBit = 0 then x.magnitude % hiddenBit else hiddenBit + x.magnitude % hiddenBit

def exponent (x : Double) : Int :=
  (max (x.magnitude / hiddenBit) 1 : Nat) - 1075

def ofMagnitude (negative : Bool) (magnitude : Nat) : Double :=
  ⟨UInt64.ofNat (if negative then signBit + magnitude else magnitude)⟩

def zero (negative : Bool) : Double :=
  ofMagnitude negative 0

def infinity (negative : Bool) : Double :=
  ofMagnitude negative infinityMagnitude

def nan : Double :=
  ofMagnitude false (infinityMagnitude + hiddenBit / 2)

def neg (x : Double) : Double :=
  ofMagnitude (!x.isNegative) x.magnitude

-- The quotient of natural numbers that is `m` times two to the `e`.
def quotient (m : Nat) (e : Int) : Nat × Nat :=
  (m * two e, two (-e))

-- The largest `k` with two to the `k` at most `num / den`.
def binade (num den : Nat) : Int :=
  let k : Int := (num.log2 : Int) - den.log2
  if num * two (-k) < den * two k then k - 1 else k

-- The magnitude of the double nearest to `num / den`. The significand gets 53 bits, or fewer where the
-- exponent would fall below the least one; what is too large for a finite double becomes infinite.
def nearestMagnitude (num den : Nat) : Nat :=
  if num = 0 then 0
  else
    let e : Int := max (binade num den - 52) (-1074)
    let significand := Rounding.halfEven (num * two (-e)) (den * two e)
    min ((e + 1074).toNat * hiddenBit + significand) infinityMagnitude

def nearest (negative : Bool) (num den : Nat) : Double :=
  ofMagnitude negative (nearestMagnitude num den)

def ofNat (n : Nat) : Double :=
  nearest false n 1

-- `n` halves.
def ofHalves (n : Int) : Double :=
  nearest (n < 0) n.natAbs 2

def mul (x y : Double) : Double :=
  let negative := x.isNegative != y.isNegative
  if x.isNaN || y.isNaN then nan
  else if x.isInfinite || y.isInfinite then
    if x.magnitude = 0 || y.magnitude = 0 then nan else infinity negative
  else
    let (num, den) := quotient (x.significand * y.significand) (x.exponent + y.exponent)
    nearest negative num den

def div (x y : Double) : Double :=
  let negative := x.isNegative != y.isNegative
  if x.isNaN || y.isNaN then nan
  else if x.isInfinite then if y.isInfinite then nan else infinity negative
  else if y.isInfinite then zero negative
  else if y.magnitude = 0 then if x.magnitude = 0 then nan else infinity negative
  else
    let (num, den) := quotient x.significand (x.exponent - y.exponent)
    nearest negative num (den * y.significand)

-- Below this power of ten every decimal rounds to zero, from the next one on every decimal is infinite.
def decimalRange : Int × Int :=
  (-400, 400)

-- The double nearest to `digits` times ten to the `power`. Powers that are out of range for every number of
-- digits are answered without computing them.
def ofDecimal (negative : Bool) (digits : Nat) (power : Int) : Double :=
  let top := (Nat.toDigits 10 digits).length + power
  if digits = 0 || top < decimalRange.1 then zero negative
  else if decimalRange.2 < top then infinity negative
  else nearest negative (digits * ten power) (ten (-power))

-- Whether the first magnitude is below the second; never for a NaN.
def absLt (x y : Double) : Bool :=
  !x.isNaN && !y.isNaN && x.magnitude < y.magnitude

end Double

end StationScript
