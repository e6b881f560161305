import StationScript.Yaml.Fault
import StationScript.Yaml.Node

namespace StationScript.Yaml

def isNull (s : String) : Bool :=
  s == "null" || s == "Null" || s == "NULL" || s == "~"

def boolean? (s : String) : Option Bool :=
  if s == "true" || s == "True" || s == "TRUE" then some true
  else if s == "false" || s == "False" || s == "FALSE" then some false
  else none

def isSign (c : Char) : Bool :=
  c == '+' || c == '-'

-- Digits with a needless zero in front make a text and no number.
def isPadded (cs : List Char) : Bool :=
  let bare := if cs.head?.any isSign then cs.tail else cs
  1 < bare.length && bare.head? == some '0' && bare.all Text.isDigit

-- The base that a number is written in, and its digits, if its start tells the base.
def base? : List Char → Option (Nat × List Char)
  | '0' :: 'x' :: digits => some (16, digits)
  | '0' :: 'o' :: digits => some (8, digits)
  | '0' :: 'b' :: digits => some (2, digits)
  | _ => none

-- The number that digits of a base spell.
def digitsIn? (base : Nat) (cs : List Char) : Option Nat :=
  if cs.isEmpty then none
  else cs.foldlM (fun n c => (hexValue? c).bind fun d => if d < base then some (base * n + d) else none) 0

-- A natural number without a sign.
def magnitude? (cs : List Char) : Option Nat :=
  match base? cs with
  | some (base, digits) => digitsIn? base digits
  | none => if isPadded cs then none else digitsIn? 10 cs

-- A natural number below a limit, which may have a plus sign.
def natural? (limit : Nat) (cs : List Char) : Option Nat :=
  (magnitude? (if cs.head? = some '+' then cs.tail else cs)).filter (· < limit)

-- A number with a minus sign, whose magnitude is at most the limit.
def negative? (limit : Nat) : List Char → Option Int
  | '-' :: cs => ((magnitude? cs).filter (· ≤ limit)).map fun n => -n
  | _ => none

-- The least number that no longer fits a word of 128 bits.
def wideLimit : Nat :=
  Text.wordLimit * Text.wordLimit

def integer? (s : String) : Option Found :=
  let cs := s.toList
  (natural? Text.wordLimit cs).map (fun n => .integer n) <|>
    (negative? (Text.wordLimit / 2) cs).map .integer <|>
    (natural? wideLimit cs).map (fun n => .wideInteger n) <|>
    (negative? (wideLimit / 2) cs).map .wideInteger

-- The exponent behind the digits of a number; zero if the number ends with them.
def exponent? : List Char → Option Int
  | [] => some 0
  | c :: rest =>
    if c == 'e' || c == 'E' then
      let digits := if rest.head?.any isSign then rest.tail else rest
      (digitsIn? 10 digits).map fun n => if rest.head? = some '-' then -n else n
    else none

-- A finite number in decimal notation, which may have a minus sign.
def decimal? (cs : List Char) : Option Double := do
  let negative := cs.head? == some '-'
  let cs := if negative then cs.tail else cs
  let whole := cs.takeWhile Text.isDigit
  let rest := cs.dropWhile Text.isDigit
  let pointed := rest.head? == some '.'
  let places := if pointed then rest.tail.takeWhile Text.isDigit else []
  let rest := if pointed then rest.tail.dropWhile Text.isDigit else rest
  if whole.isEmpty && places.isEmpty then none
  let power ← exponent? rest
  let x := Double.ofDecimal negative (Text.digitsValue (whole ++ places)) (power - places.length)
  if x.isFinite then some x else none

-- The double that a text spells, if any. Only names with a point mean values that are not finite.
def double? (s : String) : Option Double :=
  let cs := s.toList
  let bare := if cs.head? = some '+' then cs.tail else cs
  let infinities := [".inf", ".Inf", ".INF"]
  if cs.head? = some '+' ∧ bare.head?.any isSign then none
  else if infinities.contains (String.ofList bare) then some (.infinity false)
  else if cs.head? = some '-' ∧ infinities.contains (String.ofList cs.tail) then some (.infinity true)
  else if [".nan", ".NaN", ".NAN"].contains s then some .nan
  else decimal? bare

-- The full text of a tag for a common kind of value.
def coreTag (kind : String) : String :=
  "tag:yaml.org,2002:" ++ kind

def plainMeaning (s : String) : Found :=
  if s = "" || isNull s then .null
  else
    match boolean? s, integer? s with
    | some b, _ => .boolean b
    | none, some f => f
    | none, none =>
      match if isPadded s.toList then none else double? s with
      | some x => .double x
      | none => .text s

namespace Scalar

-- What a written value means, or the reason why it does not fit its own tag.
def meaning (s : Scalar) : Except Reason Found :=
  let orElse (found : Option Found) (expected : String) : Except Reason Found :=
    match found with
    | some f => .ok f
    | none => .error (.invalidValue (.text s.text) expected)
  match s.tag with
  | none => .ok (if s.style = .plain then plainMeaning s.text else .text s.text)
  | some tag =>
    if tag = coreTag "bool" then orElse ((boolean? s.text).map .boolean) "a boolean"
    else if tag = coreTag "int" then orElse (integer? s.text) "an integer"
    else if tag = coreTag "float" then orElse ((double? s.text).map .double) "a float"
    else if tag = coreTag "null" then orElse (if isNull s.text then some .null else none) "null"
    else if tag.toList.head? = some '!' ∧ s.style = .plain then .ok (plainMeaning s.text)
    else .ok (.text s.text)

-- The reason when a value of another kind is expected.
def mismatch (s : Scalar) (expected : String) : Reason :=
  match s.meaning with
  | .ok found => .invalidType found expected
  | .error reason => reason

-- Whether nothing is written.
def isBlank (s : Scalar) : Bool :=
  s.text == "" && s.style == .plain

-- Whether the text may be read as a value of a common kind: it is plain, or literal under the tag of the kind.
def admits (s : Scalar) (kind : String) : Bool :=
  s.style == .plain || s.style == .literal && s.tag == some (coreTag kind)

end Scalar

end StationScript.Yaml
