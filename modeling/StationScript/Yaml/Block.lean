import StationScript.Text.Numeral
import StationScript.Yaml.Cursor

namespace StationScript.Yaml

-- What becomes of the line breaks at the end of the value.
inductive Chomp
  | drop
  | one
  | keep
  deriving DecidableEq, Repr

-- What the line with the mark says about the value.
structure BlockHeader where
  chomp : Chomp := .one
  -- By how much the value is indented, if that is told.
  increment : Nat := 0

def chomp? : Char → Option Chomp
  | '+' => some .keep
  | '-' => some .drop
  | _ => none

def increment? (c : Char) : Option Nat :=
  if Text.isDigit c then some (Text.digitValue c) else none

-- The two parts of the header come in either order; an indentation by zero is refused.
def BlockHeader.read (cs : List Char) : Option (BlockHeader × Nat) :=
  let first := cs.head?
  let second := cs.tail.head?
  let h : BlockHeader × Nat :=
    match first.bind chomp?, first.bind increment? with
    | some chomp, _ =>
      match second.bind increment? with
      | some n => (⟨chomp, n⟩, 2)
      | none => ({ chomp }, 1)
    | none, some n =>
      match second.bind chomp? with
      | some chomp => (⟨chomp, n⟩, 2)
      | none => ({ increment := n }, 1)
    | none, none => ({}, 0)
  if (cs.take h.2).contains '0' then none else some h

-- The empty lines in front of a line of the value.
structure Margin where
  breaks : List Char := []
  -- The greatest indentation among them, and of the line that follows.
  widest : Nat := 0
  after : Cursor

-- Skips empty lines, and the indentation of the next line as far as it is known; while it is not, it is all
-- the spaces. A tab must not stand in place of them.
def Margin.read (fuel : Nat) (indent : Option Nat) (c : Cursor) : Option Margin :=
  match fuel with
  | 0 => some { after := c }
  | fuel + 1 =>
    let spaces := (c.rest.takeWhile (· == ' ')).length
    let c := c.skip ((indent.map fun n => min spaces (n - c.column)).getD spaces)
    let short := (indent.map fun n => decide (c.column < n)).getD true
    if short && c.rest.head? == some '\t' then none
    else
      match c.rest with
      | ch :: _ =>
        if isBreak ch then do
          let m ← Margin.read fuel indent c.nextLine
          some { m with breaks := breakText ch ++ m.breaks, widest := max c.column m.widest }
        else some { widest := c.column, after := c }
      | [] => some { widest := c.column, after := c }

-- What was read of a value: the line break behind its last line, and whether that line started with a blank.
structure BlockState where
  lastBreak : List Char := []
  blankStart : Bool := false
  margin : Margin

-- Reads lines of the value for as long as they are indented as it is.
def readLines (fuel : Nat) (folded : Bool) (indent : Nat) (chomp : Chomp) (s : BlockState) :
    Option (List Char × Cursor) :=
  let c := s.margin.after
  match fuel, decide (c.column = indent) && !c.rest.isEmpty with
  | fuel + 1, true => do
    let blank := c.rest.head?.any isSpace
    let join := folded && s.lastBreak == ['\n'] && !s.blankStart && !blank
    let glue := if join then if s.margin.breaks.isEmpty then [' '] else [] else s.lastBreak
    let line := c.rest.takeWhile (!isBreak ·)
    let c := c.skip line.length
    let lastBreak := (c.rest.head?.map breakText).getD []
    let margin ← Margin.read (c.rest.length + 1) (some indent) c.nextLine
    let (more, c) ← readLines fuel folded indent chomp ⟨lastBreak, blank, margin⟩
    some (glue ++ s.margin.breaks ++ line ++ more, c)
  | _, _ =>
    let last := if chomp = .drop then [] else s.lastBreak
    let others := if chomp = .keep then s.margin.breaks else []
    some (last ++ others, c)

-- Reads a value behind its mark. Its lines are indented by more than `outer`, which is negative at the top.
def readBlock (folded : Bool) (outer : Int) (c : Cursor) : Option (List Char × Cursor) := do
  let (header, length) ← BlockHeader.read c.rest
  let c ← (c.skip length).endLine
  let fuel := c.rest.length + 1
  let told := if header.increment = 0 then none else some ((max outer 0).toNat + header.increment)
  let margin ← Margin.read fuel told c
  let indent := told.getD (max margin.widest (max (outer + 1).toNat 1))
  readLines fuel folded indent header.chomp { margin }

end StationScript.Yaml
