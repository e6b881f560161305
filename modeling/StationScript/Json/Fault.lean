import StationScript.Found
import StationScript.Instant.Reader

namespace StationScript.Json

inductive Reason
  -- the text ends too early
  | valueEnd
  | listEnd
  | objectEnd
  | stringEnd
  -- something else should stand here
  | value
  | identifier
  | key
  | colon
  | listComma
  | objectComma
  | trailingComma
  | trailingCharacters
  -- numbers and strings
  | number
  | range
  | escape
  | escapeEnd
  | surrogate
  | controlCharacter
  -- the document has another shape
  | invalidType (found : Found) (expected : String)
  | invalidValue (found : Found) (expected : String)
  | invalidLength (length : Nat) (expected : String)
  | missingField (name : String)
  | duplicateField (name : String)
  | instant (e : InstantError)
  deriving DecidableEq, Repr

def wording : Found.Wording :=
  ⟨"null", Double.compact.text⟩

def Reason.message : Reason → String
  | valueEnd => "EOF while parsing a value"
  | listEnd => "EOF while parsing a list"
  | objectEnd => "EOF while parsing an object"
  | stringEnd => "EOF while parsing a string"
  | value => "expected value"
  | identifier => "expected ident"
  | key => "key must be a string"
  | colon => "expected `:`"
  | listComma => "expected `,` or `]`"
  | objectComma => "expected `,` or `\x7d`"
  | trailingComma => "trailing comma"
  | trailingCharacters => "trailing characters"
  | number => "invalid number"
  | range => "number out of range"
  | escape => "invalid escape"
  | escapeEnd => "unexpected end of hex escape"
  | surrogate => "lone leading surrogate in hex escape"
  | controlCharacter => "control character (\\u0000-\\u001F) found while parsing a string"
  | invalidType found expected => "invalid type: " ++ found.describe wording ++ ", expected " ++ expected
  | invalidValue found expected => "invalid value: " ++ found.describe wording ++ ", expected " ++ expected
  | invalidLength length expected => "invalid length " ++ Nat.repr length ++ ", expected " ++ expected
  | missingField name => "missing field `" ++ name ++ "`"
  | duplicateField name => "duplicate field `" ++ name ++ "`"
  | instant e => e.message

-- A reason, and the place: so many bytes into what was left to read.
structure Fault where
  reason : Reason
  rest : List Char
  bytes : Nat
  deriving DecidableEq, Repr

def byteLength (cs : List Char) : Nat :=
  cs.foldr (fun c n => c.utf8Size + n) 0

namespace Fault

-- The fault lies in front of what is left.
def before (rest : List Char) (reason : Reason) : Fault :=
  ⟨reason, rest, 0⟩

-- The fault lies so many bytes ahead.
def ahead (bytes : Nat) (rest : List Char) (reason : Reason) : Fault :=
  ⟨reason, rest, bytes⟩

def atEnd (reason : Reason) : Fault :=
  ⟨reason, [], 0⟩

-- The place that lies so many bytes behind another one, as a line and a number of bytes within it.
def walk : Nat → Nat × Nat → List Char → Nat × Nat
  | _, place, [] => place
  | n, (line, column), c :: rest =>
    if n = 0 then (line, column)
    else if c = '\n' then walk (n - 1) (line + 1, 0) rest
    else walk (n - c.utf8Size) (line, column + min n c.utf8Size) rest

-- The place of a fault in the whole text.
def place (f : Fault) (text : List Char) : Nat × Nat :=
  walk (byteLength text - byteLength f.rest + f.bytes) (1, 0) text

def message (f : Fault) (text : List Char) : String :=
  let (line, column) := f.place text
  f.reason.message ++ " at line " ++ Nat.repr line ++ " column " ++ Nat.repr column

end Fault

end StationScript.Json
