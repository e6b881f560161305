import StationScript.Yaml.Quoted

namespace StationScript.Yaml

inductive Style
  | plain
  | quoted
  | literal
  | folded
  deriving DecidableEq, Repr

inductive Token
  -- around a document
  | version (major minor : Nat)
  -- A handle for tags, and what it stands for.
  | handle (name meant : String)
  | documentStart
  | documentEnd
  | streamEnd
  -- lists and maps by indentation
  | itemsStart
  | entriesStart
  | blockEnd
  -- lists and maps in brackets
  | listOpen
  | listClose
  | mapOpen
  | mapClose
  | separator
  -- marks in front of nodes
  | item
  | key
  | value
  -- nodes and their properties
  | alias (name : String)
  | anchor (name : String)
  | tag (handle rest : String)
  | scalar (text : String) (style : Style)
  deriving DecidableEq, Repr

abbrev TokenEnd :=
  Token × Cursor

-- The marks that may follow the name of an anchor directly.
def anchorEnds : List Char :=
  ['?', ':', ',', ']', '\x7d', '%', '@', '\x60']

def readName (c : Cursor) : Option (String × Cursor) :=
  let name := c.rest.takeWhile isNameChar
  let c := c.skip name.length
  if !name.isEmpty && (gapAhead c.rest || c.rest.head?.any anchorEnds.contains) then some (String.ofList name, c)
  else none

-- The characters of a tag, apart from brackets.
def isTagChar (c : Char) : Bool :=
  isNameChar c || [';', '/', '?', ':', '@', '&', '=', '+', '$', '.', '!', '~', '*', '\'', '(', ')'].contains c

-- A tag that is written out may hold brackets and commas.
def isWideTagChar (c : Char) : Bool :=
  isTagChar c || c == ',' || c == '[' || c == ']'

-- A byte that is written as two digits behind a percent sign.
def octet? : List Char → Option Nat
  | '%' :: a :: b :: _ => hexNumber? [a, b]
  | _ => none

-- How many bytes a character takes that starts with this one.
def octetCount? (first : Nat) : Option Nat :=
  if first < 0x80 then some 1
  else if first < 0xC0 then none
  else if first < 0xE0 then some 2
  else if first < 0xF0 then some 3
  else if first < 0xF8 then some 4
  else none

-- The further bytes of a character, added to what its first byte tells of it.
def octetsFrom (count code : Nat) (cs : List Char) : Option Nat :=
  match count with
  | 0 => some code
  | count + 1 => do
    let next ← octet? cs
    if 0x80 ≤ next ∧ next < 0xC0 then octetsFrom count (64 * code + (next - 0x80)) (cs.drop 3) else none

-- The character that written bytes make up, and how many characters they are written in.
def escapedOctets? (cs : List Char) : Option (Char × Nat) := do
  let first ← octet? cs
  let count ← octetCount? first
  let lead := if count = 1 then first else first % (128 >>> count)
  let code ← octetsFrom (count - 1) lead (cs.drop 3)
  some (Char.ofNat code, 3 * count)

def readTagText (fuel : Nat) (admits : Char → Bool) (c : Cursor) : Option (List Char × Cursor) :=
  match fuel, c.rest with
  | fuel + 1, ch :: _ =>
    if ch == '%' then do
      let (meant, length) ← escapedOctets? c.rest
      let (more, c) ← readTagText fuel admits (c.skip length)
      some (meant :: more, c)
    else if admits ch then do
      let (more, c) ← readTagText fuel admits (c.skip 1)
      some (ch :: more, c)
    else some ([], c)
  | _, _ => some ([], c)

def readTagFrom (admits : Char → Bool) (c : Cursor) : Option (List Char × Cursor) :=
  readTagText c.rest.length admits c

-- The length of a handle: a name between two marks, or an open one that has no second mark.
def handleLength (cs : List Char) : Nat :=
  let name := cs.tail.takeWhile isNameChar
  1 + name.length + (if (cs.drop (1 + name.length)).head? = some '!' then 1 else 0)

def readTag (bracketed : Bool) (c : Cursor) : Option TokenEnd := do
  let (token, c) ←
    if c.startsWith "!<" then do
      let (text, c) ← readTagFrom isWideTagChar (c.skip 2)
      if text.isEmpty || c.rest.head? ≠ some '>' then none else some (.tag "" (String.ofList text), c.skip 1)
    else do
      let handle := c.rest.take (handleLength c.rest)
      let (text, c) ← readTagFrom isTagChar (c.skip handle.length)
      if 1 < handle.length ∧ handle.getLast? = some '!' then
        if text.isEmpty then none else some (.tag (String.ofList handle) (String.ofList text), c)
      else
        let rest := handle.tail ++ text
        some (if rest.isEmpty then .tag "" "!" else .tag "!" (String.ofList rest), c)
  if gapAhead c.rest || bracketed && c.rest.head? == some ',' then some (token, c) else none

-- The greatest number of digits in the number of a version.
def versionDigits : Nat :=
  9

def readVersionNumber (c : Cursor) : Option (Nat × Cursor) :=
  let digits := c.rest.takeWhile Text.isDigit
  if digits.isEmpty || versionDigits < digits.length then none
  else some (Text.digitsValue digits, c.skip digits.length)

def readVersion (c : Cursor) : Option TokenEnd := do
  let (major, c) ← readVersionNumber c
  if c.rest.head? = some '.' then do
    let (minor, c) ← readVersionNumber (c.skip 1)
    some (.version major minor, c)
  else none

def readHandle (c : Cursor) : Option TokenEnd := do
  let handle := c.rest.take (handleLength c.rest)
  let marked := handle.head? == some '!' && (handle.length = 1 || handle.getLast? == some '!')
  let c := c.skip handle.length
  if marked && c.rest.head?.any isSpace then do
    let (text, c) ← readTagFrom isWideTagChar (c.skipWhile isSpace)
    if text.isEmpty || !gapAhead c.rest then none
    else some (.handle (String.ofList handle) (String.ofList text), c)
  else none

-- Reads a directive behind its mark, with the rest of its line.
def readDirective (c : Cursor) : Option TokenEnd := do
  let name := c.rest.takeWhile isNameChar
  let c := c.skip name.length
  if !gapAhead c.rest then none
  let (token, c) ← match String.ofList name with
    | "YAML" => readVersion (c.skipWhile isSpace)
    | "TAG" => readHandle (c.skipWhile isSpace)
    | _ => none
  return (token, ← c.endLine)

end StationScript.Yaml
