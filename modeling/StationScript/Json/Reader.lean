import StationScript.Json.Literal
import StationScript.Json.Number

namespace StationScript.Json

inductive Kind
  -- A natural number that fits a word, under the name that messages give it.
  | word (name : String)
  | double
  | boolean
  | text
  | texts
  | instant
  deriving DecidableEq, Repr

def Kind.expected : Kind → String
  | word name => name
  | double => "f64"
  | boolean => "a boolean"
  | text => "a string"
  | texts => "a sequence"
  | instant => "an RFC 3339 formatted date and time string"

inductive Datum
  | word (n : Nat)
  | double (x : Double)
  | boolean (b : Bool)
  | text (s : String)
  | texts (l : List String)
  | instant (t : Instant)
  deriving DecidableEq, Repr

-- The shape of a document: its name, and the names and kinds of its fields.
structure Shape where
  name : String
  fields : List (String × Kind)

-- The four characters that may stand between the parts of a document.
def isSpace (c : Char) : Bool :=
  c == ' ' || c == '\n' || c == '\t' || c == '\r'

def skipSpace (cs : List Char) : List Char :=
  cs.dropWhile isSpace

-- The rest of a word whose first letter was read.
def expectWord : List Char → List Char → Except Fault (List Char)
  | [], cs => .ok cs
  | _, [] => .error (.atEnd .valueEnd)
  | w :: ws, c :: cs => if c = w then expectWord ws cs else .error (.ahead 1 (c :: cs) .identifier)

-- A plain value, or the opening of a list or an object, which is left standing.
def scalar (cs : List Char) : Except Fault (Found × List Char) :=
  match cs with
  | 'n' :: rest => return (.null, ← expectWord ['u', 'l', 'l'] rest)
  | 't' :: rest => return (.boolean true, ← expectWord ['r', 'u', 'e'] rest)
  | 'f' :: rest => return (.boolean false, ← expectWord ['a', 'l', 's', 'e'] rest)
  | '"' :: rest => do
    let (text, rest) ← readBody rest
    return (.text (String.ofList text), rest)
  | '[' :: _ => .ok (.sequence, cs)
  | '\x7b' :: _ => .ok (.map, cs)
  | '-' :: rest => do
    let (n, rest) ← readNumber true rest
    return (n.found, rest)
  | c :: _ => do
    if Text.isDigit c then
      let (n, rest) ← readNumber false cs
      return (n.found, rest)
    else .error (.ahead 1 cs .value)
  | [] => .error (.atEnd .valueEnd)

-- What a plain value is as a datum of some kind.
def Kind.ofFound (k : Kind) (f : Found) : Except Reason Datum :=
  match k, f with
  | word name, .integer n => if n < 0 then .error (.invalidValue f name) else .ok (.word n.toNat)
  | double, .integer n => .ok (.double (.nearest (n < 0) n.natAbs 1))
  | double, .double x => .ok (.double x)
  | boolean, .boolean b => .ok (.boolean b)
  | text, .text s => .ok (.text s)
  | instant, .text s =>
    match Instant.ofText s with
    | .ok t => .ok (.instant t)
    | .error e => .error (.instant e)
  | k, f => .error (.invalidType f k.expected)

def Kind.readScalar (k : Kind) (cs : List Char) : Except Fault (Datum × List Char) := do
  let (found, rest) ← scalar (skipSpace cs)
  match k.ofFound found with
  | .ok d => .ok (d, rest)
  | .error reason => .error (.before rest reason)

-- Where the next element of a list starts, behind the comma that is due unless it is the first; none at the
-- end of the list.
def nextElement (first : Bool) (cs : List Char) : Except Fault (Option (List Char)) :=
  match skipSpace cs with
  | [] => .error (.atEnd .listEnd)
  | ']' :: _ => .ok none
  | ',' :: rest =>
    if first then .ok (some (skipSpace cs))
    else
      match skipSpace rest with
      | [] => .error (.atEnd .valueEnd)
      | ']' :: rest => .error (.ahead 1 (']' :: rest) .trailingComma)
      | rest => .ok (some rest)
  | rest => if first then .ok (some rest) else .error (.ahead 1 rest .listComma)

def endList (cs : List Char) : Except Fault (List Char) :=
  match skipSpace cs with
  | [] => .error (.atEnd .listEnd)
  | ']' :: rest => .ok rest
  | ',' :: rest =>
    match skipSpace rest with
    | ']' :: rest => .error (.ahead 1 (']' :: rest) .trailingComma)
    | rest => .error (.ahead 1 rest .trailingCharacters)
  | rest => .error (.ahead 1 rest .trailingCharacters)

-- The elements of a list of texts, behind its bracket. An element takes at least one character, which bounds
-- the number of rounds.
def texts (fuel : Nat) (first : Bool) (cs : List Char) : Except Fault (List String × List Char) :=
  match fuel with
  | 0 => .error (.before cs .listEnd)
  | fuel + 1 => do
    match ← nextElement first cs with
    | none => return ([], ← endList cs)
    | some rest =>
      let (d, rest) ← Kind.text.readScalar rest
      let (l, rest) ← texts fuel false rest
      match d with
      | .text s => return (s :: l, rest)
      | _ => return (l, rest)

def Kind.read (k : Kind) (cs : List Char) : Except Fault (Datum × List Char) :=
  match k, skipSpace cs with
  | texts, '[' :: rest => do
    let (l, rest) ← Json.texts (rest.length + 1) true rest
    return (.texts l, rest)
  | k, cs => k.readScalar cs

inductive Bracket
  | list
  | object
  deriving DecidableEq, Repr

-- What is due while a value is stepped over.
inductive Due
  | value
  -- The end of the innermost bracket, or what comes after a comma, which is due too if there was a value.
  | next (comma : Bool)
  | key

-- Steps over a value that stands within brackets. Every second step at least takes a character.
def skip (fuel : Nat) (open_ : List Bracket) (due : Due) (cs : List Char) : Except Fault (List Char) :=
  match fuel with
  | 0 => .error (.before cs .valueEnd)
  | fuel + 1 =>
    let done (rest : List Char) : Except Fault (List Char) :=
      if open_.isEmpty then .ok rest else skip fuel open_ (.next true) rest
    let enter (b : Bracket) (rest : List Char) := skip fuel open_ (if b = .object then .key else .value) rest
    match due, skipSpace cs with
    | .value, 'n' :: rest => do done (← expectWord ['u', 'l', 'l'] rest)
    | .value, 't' :: rest => do done (← expectWord ['r', 'u', 'e'] rest)
    | .value, 'f' :: rest => do done (← expectWord ['a', 'l', 's', 'e'] rest)
    | .value, '"' :: rest => do done (← skipBody rest)
    | .value, '-' :: rest => do done (← skipNumber rest)
    | .value, '[' :: rest => skip fuel (.list :: open_) (.next false) rest
    | .value, '\x7b' :: rest => skip fuel (.object :: open_) (.next false) rest
    | .value, c :: rest => do
      if Text.isDigit c then done (← skipNumber (c :: rest)) else .error (.ahead 1 (c :: rest) .value)
    | .value, [] => .error (.atEnd .valueEnd)
    | .key, '"' :: rest => do
      match skipSpace (← skipBody rest) with
      | ':' :: rest => skip fuel open_ .value rest
      | [] => .error (.atEnd .objectEnd)
      | rest => .error (.ahead 1 rest .colon)
    | .key, [] => .error (.atEnd .objectEnd)
    | .key, rest => .error (.ahead 1 rest .key)
    | .next comma, rest =>
      match open_, rest with
      | [], rest => .ok rest
      | b :: _, [] => .error (.atEnd (if b = .list then .listEnd else .objectEnd))
      | .list :: outer, ']' :: rest | .object :: outer, '\x7d' :: rest =>
        if outer.isEmpty then .ok rest else skip fuel outer (.next true) rest
      | b :: _, ',' :: after => if comma then enter b after else enter b rest
      | b :: _, rest =>
        if comma then .error (.ahead 1 rest (if b = .list then .listComma else .objectComma)) else enter b rest

def skipValue (cs : List Char) : Except Fault (List Char) :=
  skip (2 * cs.length + 2) [] .value cs

-- Where the name of the next field starts, behind its opening mark; none at the end of the object.
def nextName (first : Bool) (cs : List Char) : Except Fault (Option (List Char)) :=
  match skipSpace cs with
  | [] => .error (.atEnd .objectEnd)
  | '\x7d' :: _ => .ok none
  | '"' :: rest => if first then .ok (some rest) else .error (.ahead 1 ('"' :: rest) .objectComma)
  | ',' :: rest =>
    if first then .error (.ahead 1 (',' :: rest) .key)
    else
      match skipSpace rest with
      | '"' :: rest => .ok (some rest)
      | '\x7d' :: rest => .error (.ahead 1 ('\x7d' :: rest) .trailingComma)
      | [] => .error (.atEnd .valueEnd)
      | rest => .error (.ahead 1 rest .key)
  | rest => .error (.ahead 1 rest (if first then .key else .objectComma))

-- The place of a fault in the fields of an object, which is behind its closing brace if that comes next.
def leaveObject (cs : List Char) : List Char :=
  match skipSpace cs with
  | '\x7d' :: rest => rest
  | rest => rest

-- The fields of an object, behind its brace, in the order in which they stand. A field takes at least one
-- character, which bounds the number of rounds.
def members (s : Shape) (fuel : Nat) (seen : List (String × Datum)) (cs : List Char) :
    Except Fault (List (String × Datum) × List Char) :=
  go fuel true seen cs
where
  go (fuel : Nat) (first : Bool) (seen : List (String × Datum)) (cs : List Char) :
      Except Fault (List (String × Datum) × List Char) :=
    match fuel with
    | 0 => .error (.before cs .objectEnd)
    | fuel + 1 => do
      match ← nextName first cs with
      | none => .ok (seen, leaveObject cs)
      | some rest =>
        let (name, rest) ← readBody rest
        let name := String.ofList name
        if (seen.lookup name).isSome then .error (.before (leaveObject rest) (.duplicateField name))
        else
          match skipSpace rest with
          | ':' :: rest =>
            match s.fields.lookup name with
            | some kind =>
              let (d, rest) ← kind.read rest
              go fuel false ((name, d) :: seen) rest
            | none => go fuel false seen (← skipValue rest)
          | [] => .error (.atEnd .objectEnd)
          | rest => .error (.ahead 1 rest .colon)

-- The fields of a shape among those that were read; all of them must be there.
def Shape.collect (s : Shape) (seen : List (String × Datum)) : Except Reason (List Datum) :=
  s.fields.mapM fun (name, _) =>
    match seen.lookup name with
    | some d => .ok d
    | none => .error (.missingField name)

def Shape.title (s : Shape) : String :=
  "struct " ++ s.name

-- The values of the fields as elements of a list, behind its bracket.
def elements (s : Shape) (index : Nat) (fields : List (String × Kind)) (cs : List Char) :
    Except Fault (List Datum × List Char) :=
  match fields with
  | [] => return ([], ← endList cs)
  | (_, kind) :: later => do
    match ← nextElement (index = 0) cs with
    | none =>
      let expected := s.title ++ " with " ++ Nat.repr s.fields.length ++ " elements"
      .error (.before (← endList cs) (.invalidLength index expected))
    | some rest =>
      let (d, rest) ← kind.read rest
      let (l, rest) ← elements s (index + 1) later rest
      return (d :: l, rest)

def Shape.readPrefix (s : Shape) (cs : List Char) : Except Fault (List Datum × List Char) :=
  match skipSpace cs with
  | '\x7b' :: rest => do
    let (seen, rest) ← members s (rest.length + 1) [] rest
    match s.collect seen with
    | .ok l => .ok (l, rest)
    | .error reason => .error (.before rest reason)
  | '[' :: rest => elements s 0 s.fields rest
  | rest => do
    let (found, rest) ← scalar rest
    .error (.before rest (.invalidType found s.title))

-- Reads a text that is one document of the shape, with nothing but space around it.
def Shape.read (s : Shape) (cs : List Char) : Except Fault (List Datum) := do
  let (l, rest) ← s.readPrefix cs
  match skipSpace rest with
  | [] => .ok l
  | rest => .error (.ahead 1 rest .trailingCharacters)

end StationScript.Json
