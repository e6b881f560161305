namespace StationScript.Yaml

def isSpace (c : Char) : Bool :=
  c == ' ' || c == '\t'

-- The characters that end a line.
def isBreak (c : Char) : Bool :=
  c == '\n' || c == '\r' || c == '\u0085' || c == '\u2028' || c == '\u2029'

-- The characters of names and handles.
def isNameChar (c : Char) : Bool :=
  c.isAlphanum || c == '_' || c == '-'

-- The marks of lists and maps that are written in brackets.
def isBracketMark (c : Char) : Bool :=
  c == ',' || c == '[' || c == ']' || c == '\x7b' || c == '\x7d'

-- The mark that a text may start with to tell its encoding.
def encodingMark : Char :=
  '\uFEFF'

-- The characters that a document may hold at all.
def isPermitted (c : Char) : Bool :=
  c == '\t' || c == '\n' || c == '\r' || c == '\u0085' ||
    (0x20 ≤ c.toNat && c.toNat ≤ 0x7E) || (0xA0 ≤ c.toNat && c.toNat ≤ 0xFFFD) || 0x10000 ≤ c.toNat

-- Whether no word goes on here: the text ends, or white space follows.
def gapAhead : List Char → Bool
  | [] => true
  | c :: _ => isSpace c || isBreak c

-- What a line break is in the text of a value.
def breakText (c : Char) : List Char :=
  if c == '\u2028' || c == '\u2029' then [c] else ['\n']

structure Cursor where
  rest : List Char
  index : Nat := 0
  line : Nat := 0
  column : Nat := 0
  deriving Repr

namespace Cursor

-- Skips characters within a line.
def skip (n : Nat) (c : Cursor) : Cursor :=
  { c with rest := c.rest.drop n, index := c.index + n, column := c.column + n }

def skipWhile (p : Char → Bool) (c : Cursor) : Cursor :=
  c.skip (c.rest.takeWhile p).length

-- Skips a line break.
def nextLine (c : Cursor) : Cursor :=
  match c.rest with
  | '\r' :: '\n' :: rest => ⟨rest, c.index + 2, c.line + 1, 0⟩
  | _ :: rest => ⟨rest, c.index + 1, c.line + 1, 0⟩
  | [] => c

def startsWith (s : String) (c : Cursor) : Bool :=
  s.toList.isPrefixOf c.rest

-- Whether one of the lines that separate documents starts here.
def atSeparator (c : Cursor) : Bool :=
  c.column == 0 && (c.startsWith "---" || c.startsWith "...") && gapAhead (c.rest.drop 3)

def atBreak (c : Cursor) : Bool :=
  c.rest.head?.any isBreak

-- Skips a comment, if one starts here.
def skipComment (c : Cursor) : Cursor :=
  if c.rest.head? = some '#' then c.skipWhile (!isBreak ·) else c

-- Skips what may follow the last word of a line, up to the start of the next one.
def endLine (c : Cursor) : Option Cursor :=
  let c := (c.skipWhile isSpace).skipComment
  if c.rest.isEmpty then some c
  else if c.atBreak then some c.nextLine
  else none

end Cursor

end StationScript.Yaml
