import StationScript.Date
import StationScript.Double
import StationScript.Text.Padding

namespace StationScript

-- An instant of universal time, in nanoseconds since the start of 1970.
structure Instant where
  nanoseconds : Int
  deriving DecidableEq, Repr

namespace Instant

def perMicrosecond : Nat :=
  1000

def perMillisecond : Nat :=
  1000 * perMicrosecond

def perSecond : Nat :=
  1000 * perMillisecond

def perDay : Nat :=
  86400 * perSecond

def ofMilliseconds (n : Int) : Instant :=
  ⟨n * perMillisecond⟩

def milliseconds (t : Instant) : Int :=
  t.nanoseconds / perMillisecond

def addMilliseconds (t : Instant) (n : Nat) : Instant :=
  ⟨t.nanoseconds + n * perMillisecond⟩

def date (t : Instant) : Date :=
  .ofDays (t.nanoseconds / perDay)

def sinceMidnight (t : Instant) : Nat :=
  (t.nanoseconds % perDay).toNat

def fraction (t : Instant) : Nat :=
  t.sinceMidnight % perSecond

-- The hour, minute and second of the day, with colons between.
def clock (t : Instant) : String :=
  let seconds := t.sinceMidnight / perSecond
  Text.padded 2 (seconds / 3600) ++ ":" ++ Text.padded 2 (seconds / 60 % 60) ++ ":" ++
    Text.padded 2 (seconds % 60)

-- The clock time to the millisecond.
def clockMillis (t : Instant) : String :=
  t.clock ++ "." ++ Text.padded 3 (t.fraction / perMillisecond)

-- A year has four digits; one that needs more, or is negative, carries its sign.
def yearText (year : Int) : String :=
  if 0 ≤ year ∧ year ≤ 9999 then Text.padded 4 year.toNat
  else (if year < 0 then "-" else "+") ++ Text.padded 4 year.natAbs

def dateText (t : Instant) : String :=
  yearText t.date.year ++ "-" ++ Text.padded 2 t.date.month ++ "-" ++ Text.padded 2 t.date.day

-- A fraction of a second in milli-, micro- or nanoseconds, whichever first is exact, and nothing if it is
-- zero.
def fractionText (nanoseconds : Nat) : String :=
  if nanoseconds = 0 then ""
  else if nanoseconds % perMillisecond = 0 then "." ++ Text.padded 3 (nanoseconds / perMillisecond)
  else if nanoseconds % perMicrosecond = 0 then "." ++ Text.padded 6 (nanoseconds / perMicrosecond)
  else "." ++ Text.padded 9 nanoseconds

-- The instant in the notation of RFC 3339.
def text (t : Instant) : String :=
  t.dateText ++ "T" ++ t.clock ++ fractionText t.fraction ++ "Z"

-- The instant as the log shows it, to the microsecond.
def stamp (t : Instant) : String :=
  t.dateText ++ "T" ++ t.clock ++ "." ++ Text.padded 6 (t.fraction / perMicrosecond) ++ "Z"

-- The seconds since the start of 1970, to the microsecond.
def seconds (t : Instant) : Double :=
  .nearest (t.nanoseconds < 0) (t.nanoseconds / perMicrosecond).natAbs 1000000

end Instant

end StationScript
