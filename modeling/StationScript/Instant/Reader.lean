import StationScript.Instant
import StationScript.Text.Blank
import StationScript.Text.Numeral

namespace StationScript

inductive InstantError
  | tooShort
  | tooLong
  | invalid
  | outOfRange
  | impossible
  deriving DecidableEq, Repr

def InstantError.message : InstantError → String
  | tooShort => "premature end of input"
  | tooLong => "trailing input"
  | invalid => "input contains invalid characters"
  | outOfRange => "input is out of range"
  | impossible => "no possible date and time matching input"

namespace Instant

-- A reader takes a value off the front of a text, or finds why there is none.
abbrev Reader (α : Type) :=
  StateT (List Char) (Except InstantError) α

namespace Reader

def fail {α : Type} (e : InstantError) : Reader α :=
  fun _ => .error e

def skipBlank : Reader Unit :=
  modify Text.trimStart

def next : Reader Char := do
  match ← get with
  | [] => fail .tooShort
  | c :: rest =>
    set rest
    return c

def literal (c : Char) : Reader Unit := do
  if (← next) ≠ c then fail .invalid

-- The greatest number that fits a signed word of 64 bits.
def signedMax : Nat :=
  9223372036854775807

-- A number of one digit or more, up to so many.
def digits (most : Option Nat) : Reader Nat := do
  let cs ← get
  if cs.isEmpty then fail .tooShort
  let run := cs.takeWhile Text.isDigit
  let run := (most.map run.take).getD run
  if run.isEmpty then fail .invalid
  if signedMax < Text.digitsValue run then fail .outOfRange
  set (cs.drop run.length)
  return Text.digitsValue run

-- A number of at most two digits within bounds, behind any white space.
def part (least most : Nat) : Reader Nat := do
  skipBlank
  let n ← digits (some 2)
  if n < least ∨ most < n then fail .outOfRange
  return n

-- The greatest year in absolute value that is looked at.
def yearMax : Nat :=
  2147483647

-- A year. Without a sign it has at most four digits.
def year : Reader Int := do
  skipBlank
  let (negative, most) ← match ← get with
    | '-' :: rest => do
      set rest
      pure (true, none)
    | '+' :: rest => do
      set rest
      pure (false, none)
    | _ => pure (false, some 4)
  let n : Int := (← digits most : Nat)
  let y := if negative then -n else n
  if y < -(yearMax : Int) - 1 ∨ yearMax < y then fail .outOfRange
  return y

-- The part of a second behind a point, in nanoseconds. Digits beyond the ninth are dropped.
def fraction : Reader Nat := do
  match ← get with
  | '.' :: rest =>
    set rest
    let n ← digits (some 9)
    let count := min 9 (rest.takeWhile Text.isDigit).length
    modify (·.dropWhile Text.isDigit)
    return n * Nat.pow 10 (9 - count)
  | _ => return 0

-- A time of day in nanoseconds. The second may be 60, which then runs into the next minute.
def timeOfDay : Reader Nat := do
  let hour ← part 0 23
  skipBlank
  literal ':'
  let minute ← part 0 59
  skipBlank
  literal ':'
  let second ← part 0 60
  let nanoseconds ← fraction
  return (3600 * hour + 60 * minute + second) * perSecond + nanoseconds

def date : Reader Date := do
  let year ← year
  skipBlank
  literal '-'
  let month ← part 1 12
  skipBlank
  literal '-'
  let day ← part 1 31
  return ⟨year, month, day⟩

-- Two digits next to each other.
def pair : Reader Nat := do
  match ← get with
  | a :: b :: rest =>
    if Text.isDigit a ∧ Text.isDigit b then
      set rest
      return 10 * Text.digitValue a + Text.digitValue b
    else fail .invalid
  | [c] => if c.utf8Size < 2 then fail .tooShort else fail .invalid
  | [] => fail .tooShort

-- Hours and minutes behind a sign, in seconds.
def offset (negative : Bool) : Reader Int := do
  let hours ← pair
  modify (·.dropWhile fun c => c == ':' || Text.isBlank c)
  let minutes ← pair
  if 60 ≤ minutes then fail .outOfRange
  let seconds : Int := 3600 * hours + 60 * minutes
  return if negative then -seconds else seconds

-- How far local time is ahead of universal time, in seconds.
def zone : Reader Int := do
  let cs ← get
  if String.ofList ((cs.take 3).map Char.toUpper) = "UTC" then
    set (cs.drop 3)
    return 0
  match ← next with
  | 'Z' | 'z' => return 0
  | '+' => offset false
  | '-' | '\u2212' => offset true
  | _ => fail .invalid

def separator : Reader Unit := do
  match ← next with
  | 't' | 'T' | ' ' => return ()
  | _ => fail .invalid

end Reader

-- The last year of the calendar in each direction.
def calendarYears : Int × Int :=
  (-262143, 262142)

-- Reads an instant from a text. A date and a time that are well formed must also exist.
def ofText (s : String) : Except InstantError Instant := do
  let ((date, time, zone), rest) ← (do
    let date ← Reader.date
    Reader.separator
    let time ← Reader.timeOfDay
    Reader.skipBlank
    let zone ← Reader.zone
    return (date, time, zone) : Reader (Date × Nat × Int)).run s.toList
  if !(Text.trimStart rest).isEmpty then throw .tooLong
  if !date.isValid ∨ date.year < calendarYears.1 ∨ calendarYears.2 < date.year then throw .outOfRange
  if 86400 ≤ zone.natAbs then throw .outOfRange
  let t : Instant := ⟨date.toDays * perDay + time - zone * perSecond⟩
  if t.date.year < calendarYears.1 ∨ calendarYears.2 < t.date.year then throw .impossible
  return t

end Instant

end StationScript
