import StationScript.Yaml.Block
import StationScript.Yaml.Plain
import StationScript.Yaml.Token

namespace StationScript.Yaml

-- A place where a key may have started, which shows at the colon behind it.
structure Candidate where
  -- The number of the token that starts there.
  number : Nat
  index : Nat
  line : Nat
  column : Nat
  -- Whether nothing but a key can stand there.
  required : Bool
  deriving DecidableEq, Repr

-- The text between a key's start and its colon must be shorter than this.
def keyReach : Nat :=
  1024

structure Scan where
  cursor : Cursor
  tokens : Array Token := #[]
  -- The indentation of the innermost list or map, negative outside of any.
  indent : Int := -1
  outerIndents : List Int := []
  candidate : Option Candidate := none
  -- The candidates outside of the brackets that are open, the innermost first.
  outerCandidates : List (Option Candidate) := []
  -- Whether a key may start here.
  keyAllowed : Bool := true

namespace Scan

def bracketed (s : Scan) : Bool :=
  !s.outerCandidates.isEmpty

def push (s : Scan) (t : Token) : Scan :=
  { s with tokens := s.tokens.push t }

-- The number of tokens that no later character can have a part in.
def settled (s : Scan) : Nat :=
  (s.candidate :: s.outerCandidates).foldl (fun n c => min n ((c.map (·.number)).getD n)) s.tokens.size

-- Whether a candidate lies too far back to be a key.
def isStale (s : Scan) (c : Candidate) : Bool :=
  c.line < s.cursor.line || c.index + keyReach < s.cursor.index

def dropStale (s : Scan) : Option Scan :=
  let all := s.candidate :: s.outerCandidates
  if all.any fun c => c.any fun c => s.isStale c && c.required then none
  else
    some { s with
      candidate := s.candidate.filter (!s.isStale ·)
      outerCandidates := s.outerCandidates.map (·.filter (!s.isStale ·)) }

def dropCandidate (s : Scan) : Option Scan :=
  if s.candidate.any (·.required) then none else some { s with candidate := none }

-- Remembers this place as a candidate, if a key may start here.
def saveCandidate (s : Scan) : Option Scan :=
  if s.keyAllowed then do
    let s ← s.dropCandidate
    let c := s.cursor
    let required := !s.bracketed && s.indent == c.column
    some { s with candidate := some ⟨s.tokens.size, c.index, c.line, c.column, required⟩ }
  else some s

-- Starts a list or a map at a column, in front of the token with a number, unless it goes on there.
def deepen (s : Scan) (column number : Nat) (t : Token) : Scan :=
  if !s.bracketed && s.indent < column then
    { s with
      tokens := s.tokens.toList.insertIdx number t |>.toArray
      indent := column
      outerIndents := s.indent :: s.outerIndents }
  else s

-- Ends the lists and maps that are indented by more than this.
def endAbove (column : Int) : Int → List Int → Array Token → Int × List Int × Array Token
  | indent, outer :: rest, tokens =>
    if column < indent then endAbove column outer rest (tokens.push .blockEnd) else (indent, outer :: rest, tokens)
  | indent, [], tokens => (indent, [], tokens)

def surface (s : Scan) (column : Int) : Scan :=
  if s.bracketed then s
  else
    let (indent, outerIndents, tokens) := endAbove column s.indent s.outerIndents s.tokens
    { s with indent, outerIndents, tokens }

def mark (s : Scan) (length : Nat) (t : Token) : Scan :=
  { s.push t with cursor := s.cursor.skip length }

-- Skips spaces, comments and empty lines. Outside of brackets a key may start on a new line, and tabs are
-- skipped only where none may.
def skipSpace (fuel : Nat) (s : Scan) : Scan :=
  match fuel with
  | 0 => s
  | fuel + 1 =>
    let c := if s.cursor.index = 0 ∧ s.cursor.rest.head? = some encodingMark then s.cursor.skip 1 else s.cursor
    let tabs := s.bracketed || !s.keyAllowed
    let c := (c.skipWhile fun ch => ch == ' ' || tabs && ch == '\t').skipComment
    if c.atBreak then skipSpace fuel { s with cursor := c.nextLine, keyAllowed := s.keyAllowed || !s.bracketed }
    else { s with cursor := c }

def streamEnd (s : Scan) : Option Scan := do
  let s ← (s.surface (-1)).dropCandidate
  some ({ s with keyAllowed := false }.push .streamEnd)

def directive (s : Scan) : Option Scan := do
  let s ← (s.surface (-1)).dropCandidate
  let (t, cursor) ← readDirective (s.cursor.skip 1)
  some { s.push t with cursor, keyAllowed := false }

def documentMark (s : Scan) (t : Token) : Option Scan := do
  let s ← (s.surface (-1)).dropCandidate
  some ({ s with keyAllowed := false }.mark 3 t)

def «open» (s : Scan) (t : Token) : Option Scan := do
  let s ← s.saveCandidate
  let s := s.mark 1 t
  some { s with candidate := none, outerCandidates := s.candidate :: s.outerCandidates, keyAllowed := true }

def close (s : Scan) (t : Token) : Option Scan := do
  let s ← s.dropCandidate
  let s := { s.mark 1 t with keyAllowed := false }
  match s.outerCandidates with
  | c :: rest => some { s with candidate := c, outerCandidates := rest }
  | [] => some s

def separator (s : Scan) : Option Scan := do
  let s ← s.dropCandidate
  some ({ s with keyAllowed := true }.mark 1 .separator)

-- A mark that starts an item or a key outside of brackets, where none may stand unless a key may start.
def start (s : Scan) (block t : Token) (thenKey : Bool) : Option Scan :=
  if !s.bracketed && !s.keyAllowed then none
  else do
    let s ← (s.deepen s.cursor.column s.tokens.size block).dropCandidate
    some ({ s with keyAllowed := thenKey }.mark 1 t)

def item (s : Scan) : Option Scan :=
  s.start .itemsStart .item true

def key (s : Scan) : Option Scan :=
  s.start .entriesStart .key (!s.bracketed)

-- The mark of a value. What was the candidate for a key becomes one.
def value (s : Scan) : Option Scan :=
  match s.candidate with
  | some c =>
    let s := { s with tokens := s.tokens.toList.insertIdx c.number .key |>.toArray, candidate := none }
    let s := s.deepen c.column c.number .entriesStart
    some ({ s with keyAllowed := false }.mark 1 .value)
  | none =>
    if !s.bracketed && !s.keyAllowed then none
    else
      let s := s.deepen s.cursor.column s.tokens.size .entriesStart
      some ({ s with keyAllowed := !s.bracketed }.mark 1 .value)

def name (s : Scan) (t : String → Token) : Option Scan := do
  let s ← s.saveCandidate
  let (name, cursor) ← readName (s.cursor.skip 1)
  some { s.push (t name) with cursor, keyAllowed := false }

def tag (s : Scan) : Option Scan := do
  let s ← s.saveCandidate
  let (t, cursor) ← readTag s.bracketed s.cursor
  some { s.push t with cursor, keyAllowed := false }

def block (s : Scan) (style : Style) : Option Scan := do
  let s ← s.dropCandidate
  let (text, cursor) ← readBlock (style = .folded) s.indent (s.cursor.skip 1)
  some { s.push (.scalar (String.ofList text) style) with cursor, keyAllowed := true }

def quoted (s : Scan) (quote : Char) : Option Scan := do
  let s ← s.saveCandidate
  let c := s.cursor.skip 1
  let (text, cursor) ← readQuoted (c.rest.length + 1) quote c
  some { s.push (.scalar (String.ofList text) .quoted) with cursor, keyAllowed := false }

def plain (s : Scan) : Option Scan := do
  let s ← s.saveCandidate
  let c := s.cursor
  let e ← readPlain (c.rest.length + 1) s.bracketed (s.indent + 1).toNat {} c
  some { s.push (.scalar (String.ofList e.text) .plain) with cursor := e.after, keyAllowed := e.broken }

-- The characters that no plain value starts with.
def indicators : List Char :=
  ['-', '?', ':', ',', '[', ']', '\x7b', '\x7d', '#', '&', '*', '!', '|', '>', '\'', '"', '%', '@', '\x60']

-- Whether a plain value starts with this character, in front of others.
def startsPlain (s : Scan) (c : Char) (rest : List Char) : Bool :=
  !isSpace c && !indicators.contains c || c == '-' && !rest.head?.any isSpace ||
    !s.bracketed && (c == '?' || c == ':') && !gapAhead rest

def token (s : Scan) : Option Scan :=
  match s.cursor.rest with
  | [] => s.streamEnd
  | c :: rest =>
    let spaced := gapAhead rest
    if s.cursor.column = 0 ∧ c = '%' then s.directive
    else if s.cursor.atSeparator then s.documentMark (if c = '-' then .documentStart else .documentEnd)
    else
      match c, s.bracketed || spaced with
      | '[', _ => s.open .listOpen
      | '\x7b', _ => s.open .mapOpen
      | ']', _ => s.close .listClose
      | '\x7d', _ => s.close .mapClose
      | ',', _ => s.separator
      | '*', _ => s.name .alias
      | '&', _ => s.name .anchor
      | '!', _ => s.tag
      | '\'', _ | '"', _ => s.quoted c
      | '?', true => s.key
      | ':', true => s.value
      | _, _ =>
        if c = '-' ∧ spaced then s.item
        else if c = '|' ∧ !s.bracketed then s.block .literal
        else if c = '>' ∧ !s.bracketed then s.block .folded
        else if s.startsPlain c rest then s.plain
        else none

def step (s : Scan) : Option Scan := do
  let s ← (s.skipSpace (s.cursor.rest.length + 1)).dropStale
  (s.surface s.cursor.column).token

-- All the tokens of the text. Where the text is malformed the tokens end with those that were settled before.
def run (fuel : Nat) (s : Scan) : List Token :=
  match fuel with
  | 0 => []
  | fuel + 1 =>
    let before (s : Scan) : List Token := s.tokens.toList.take s.settled
    match s.dropStale with
    | none => before s
    | some s =>
      match s.step with
      | none => before s
      | some next => if next.tokens.back? = some .streamEnd then next.tokens.toList else run fuel next

end Scan

-- The tokens of a text. With characters that are not permitted there are none.
def tokens (text : List Char) : List Token :=
  let text := if text.head? = some encodingMark then text.tail else text
  if text.all isPermitted then Scan.run (text.length + 1) { cursor := { rest := text } } else []

end StationScript.Yaml
