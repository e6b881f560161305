import StationScript.Yaml.Cursor

namespace StationScript.Yaml

structure Gap where
  blanks : List Char := []
  -- Whether the gap reaches over the end of a line.
  broken : Bool := false
  firstBreak : List Char := []
  laterBreaks : List Char := []
  deriving Repr

namespace Gap

-- What the gap is in the text of the value.
def text (g : Gap) : List Char :=
  if !g.broken then g.blanks
  else if g.firstBreak = ['\n'] then if g.laterBreaks.isEmpty then [' '] else g.laterBreaks
  else g.firstBreak ++ g.laterBreaks

def addBlank (g : Gap) (c : Char) : Gap :=
  if g.broken then g else { g with blanks := g.blanks ++ [c] }

def addBreak (g : Gap) (c : Char) : Gap :=
  if g.broken then { g with laterBreaks := g.laterBreaks ++ breakText c }
  else ⟨[], true, breakText c, []⟩

-- Reads the rest of a gap. On its later lines no tab may stand in a column below the margin.
def read (fuel margin : Nat) (g : Gap) (c : Cursor) : Option (Gap × Cursor) :=
  match fuel, c.rest with
  | fuel + 1, ch :: _ =>
    if isSpace ch then
      if g.broken && ch == '\t' && c.column < margin then none
      else read fuel margin (g.addBlank ch) (c.skip 1)
    else if isBreak ch then read fuel margin (g.addBreak ch) c.nextLine
    else some (g, c)
  | _, _ => some (g, c)

-- Reads a gap from where it starts, or goes on from an earlier part.
def readFrom (margin : Nat) (g : Gap) (c : Cursor) : Option (Gap × Cursor) :=
  read c.rest.length margin g c

end Gap

end StationScript.Yaml
