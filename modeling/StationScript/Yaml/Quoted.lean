import StationScript.Text.Numeral
import StationScript.Yaml.Gap

namespace StationScript.Yaml

-- The characters that a letter behind a backslash stands for.
def escapes : List (Char × Char) :=
  [('0', '\x00'), ('a', '\x07'), ('b', '\x08'), ('t', '\t'), ('\t', '\t'), ('n', '\n'), ('v', '\x0B'),
   ('f', '\x0C'), ('r', '\r'), ('e', '\x1B'), (' ', ' '), ('"', '"'), ('/', '/'), ('\\', '\\'),
   ('N', '\u0085'), ('_', '\u00A0'), ('L', '\u2028'), ('P', '\u2029')]

-- How many digits follow a letter that tells a character by its number.
def codeLengths : List (Char × Nat) :=
  [('x', 2), ('u', 4), ('U', 8)]

def hexValue? (c : Char) : Option Nat :=
  if Text.isDigit c then some (Text.digitValue c)
  else if 'a' ≤ c && c ≤ 'f' then some (c.toNat - 'a'.toNat + 10)
  else if 'A' ≤ c && c ≤ 'F' then some (c.toNat - 'A'.toNat + 10)
  else none

-- The number that hexadecimal digits spell.
def hexNumber? (cs : List Char) : Option Nat :=
  cs.foldlM (fun n c => (16 * n + ·) <$> hexValue? c) 0

-- The character that an escape stands for, and how long the escape is behind its backslash.
def escape? : List Char → Option (Char × Nat)
  | [] => none
  | c :: rest =>
    match escapes.lookup c with
    | some meant => some (meant, 1)
    | none => do
      let length ← codeLengths.lookup c
      let code ← hexNumber? (rest.take length)
      if (rest.take length).length = length ∧ code.isValidChar then some (Char.ofNat code, length + 1) else none

-- Reads a value in quotes behind the opening one.
def readQuoted (fuel : Nat) (quote : Char) (c : Cursor) : Option (List Char × Cursor) :=
  match fuel with
  | 0 => none
  | fuel + 1 =>
    let onwards (text : List Char) (c : Cursor) : Option (List Char × Cursor) := do
      let (more, c) ← readQuoted fuel quote c
      some (text ++ more, c)
    let overGap (gap : Gap) (c : Cursor) : Option (List Char × Cursor) := do
      let (gap, c) ← gap.readFrom 0 c
      onwards gap.text c
    if c.atSeparator then none
    else
      match c.rest with
      | [] => none
      | ch :: rest =>
        if isSpace ch || isBreak ch then overGap {} c
        else if ch == quote then
          if quote == '\'' && rest.head? == some quote then onwards [quote] (c.skip 2) else some ([], c.skip 1)
        else if quote == '"' && ch == '\\' then
          if rest.head?.any isBreak then overGap { broken := true } (c.skip 1).nextLine
          else do
            let (meant, length) ← escape? rest
            onwards [meant] (c.skip (length + 1))
        else onwards [ch] (c.skip 1)

end StationScript.Yaml
