import StationScript.Json.Fault

namespace StationScript.Json

inductive Number
  | natural (n : Nat)
  | negative (n : Int)
  | double (x : Double)
  deriving DecidableEq, Repr

def Number.found : Number → Found
  | natural n => .integer n
  | negative n => .integer n
  | double x => .double x

-- Adds digits to a significand for as long as it fits a word, and counts those that are left.
def gather (significand : Nat) : List Char → Nat × Nat
  | [] => (significand, 0)
  | c :: rest =>
    let next := 10 * significand + Text.digitValue c
    if next < Text.wordLimit then gather next rest else (significand, rest.length + 1)

-- The greatest power of ten that one step scales by.
def scaleMax : Nat :=
  308

-- A double times a power of ten; none if that is out of range.
def scale (x : Double) (power : Int) : Option Double :=
  if power.natAbs ≤ scaleMax then
    if 0 ≤ power then
      let y := x.mul (.ofNat (Double.ten power.natAbs))
      if y.isInfinite then none else some y
    else some (x.div (.ofNat (Double.ten power.natAbs)))
  else if x.magnitude = 0 then some x
  else if 0 ≤ power then none
  else scale (x.div (.ofNat (Double.ten scaleMax))) (power + scaleMax)
termination_by power.natAbs
decreasing_by
  simp only [scaleMax] at *
  omega

def scaled (negative : Bool) (significand : Nat) (power : Int) (rest : List Char) :
    Except Fault (Number × List Char) :=
  match scale (.ofNat significand) power with
  | some x => .ok (.double (if negative then x.neg else x), rest)
  | none => .error (.before rest .range)

-- Exponents are kept within a signed word of 32 bits.
def exponentMax : Nat :=
  2147483647

-- Adds digits to an exponent, and finds where it no longer fits.
def gatherExponent (exponent : Nat) : List Char → Except (List Char) Nat
  | [] => .ok exponent
  | c :: rest =>
    let next := 10 * exponent + Text.digitValue c
    if next ≤ exponentMax then gatherExponent next rest else .error rest

def readExponent (negative : Bool) (significand : Nat) (power : Int) (cs : List Char) :
    Except Fault (Number × List Char) :=
  let down := cs.head? == some '-'
  let cs := if down ∨ cs.head? = some '+' then cs.tail else cs
  let run := cs.takeWhile Text.isDigit
  let rest := cs.dropWhile Text.isDigit
  match run with
  | [] => .error (if cs.isEmpty then .atEnd .valueEnd else .ahead 1 cs .number)
  | _ =>
    match gatherExponent 0 run with
    | .ok e => scaled negative significand (if down then power - e else power + e) rest
    | .error left =>
      if significand ≠ 0 ∧ !down then .error (.before (left ++ rest) .range)
      else .ok (.double (.zero negative), rest)

def readTail (negative : Bool) (significand : Nat) (power : Int) (cs : List Char) :
    Except Fault (Number × List Char) :=
  match cs with
  | 'e' :: rest | 'E' :: rest => readExponent negative significand power rest
  | rest => scaled negative significand power rest

def readPlaces (negative : Bool) (significand : Nat) (power : Int) (cs : List Char) :
    Except Fault (Number × List Char) :=
  let run := cs.takeWhile Text.isDigit
  let (significand, left) := gather significand run
  if run.isEmpty then .error (if cs.isEmpty then .atEnd .valueEnd else .ahead 1 cs .number)
  else readTail negative significand (power - (run.length - left : Nat)) (cs.dropWhile Text.isDigit)

-- A number without a point or an exponent. Zero has no negative but as a double.
def whole (negative : Bool) (significand : Nat) : Number :=
  if !negative then .natural significand
  else if 0 < significand ∧ significand ≤ Text.wordLimit / 2 then .negative (-significand)
  else .double (Double.ofNat significand).neg

def readRest (negative : Bool) (run cs : List Char) : Except Fault (Number × List Char) :=
  let (significand, left) := gather 0 run
  match cs with
  | '.' :: rest => readPlaces negative significand left rest
  | 'e' :: _ | 'E' :: _ => readTail negative significand left cs
  | rest =>
    if left = 0 then .ok (whole negative significand, rest) else scaled negative significand left rest

def readNumber (negative : Bool) (cs : List Char) : Except Fault (Number × List Char) :=
  match cs with
  | [] => .error (.atEnd .valueEnd)
  | '0' :: rest =>
    if (rest.head?.map Text.isDigit).getD false then .error (.ahead 1 rest .number)
    else readRest negative ['0'] rest
  | c :: rest =>
    if Text.isDigit c then
      readRest negative (c :: rest.takeWhile Text.isDigit) (rest.dropWhile Text.isDigit)
    else .error (.ahead 1 (c :: rest) .number)

def skipExponent (cs : List Char) : Except Fault (List Char) :=
  let cs := if cs.head? = some '-' ∨ cs.head? = some '+' then cs.tail else cs
  match cs with
  | [] => .error (.atEnd .number)
  | c :: rest =>
    if Text.isDigit c then .ok (rest.dropWhile Text.isDigit) else .error (.ahead 1 (c :: rest) .number)

def skipTail (cs : List Char) : Except Fault (List Char) :=
  match cs with
  | 'e' :: rest | 'E' :: rest => skipExponent rest
  | rest => .ok rest

def skipPlaces (cs : List Char) : Except Fault (List Char) :=
  match cs with
  | '.' :: rest =>
    match rest with
    | c :: _ =>
      if Text.isDigit c then skipTail (rest.dropWhile Text.isDigit) else .error (.ahead 1 rest .number)
    | [] => .error (.atEnd .number)
  | rest => skipTail rest

def skipNumber (cs : List Char) : Except Fault (List Char) :=
  match cs with
  | [] => .error (.atEnd .number)
  | '0' :: rest =>
    if (rest.head?.map Text.isDigit).getD false then .error (.ahead 1 rest .number) else skipPlaces rest
  | c :: rest =>
    if Text.isDigit c then skipPlaces (rest.dropWhile Text.isDigit) else .error (.ahead 1 (c :: rest) .number)

end StationScript.Json
