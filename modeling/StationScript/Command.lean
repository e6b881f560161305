import StationScript.Text.Blank
import StationScript.Text.Split

namespace StationScript

structure Command where
  name : String
  target : String
  parameters : List String
  -- The line without its comment and without the white space around it.
  text : String
  -- What running the command captured; only a reading captures anything.
  output : Option String := none
  deriving DecidableEq, Repr

namespace Command

def parameter? (c : Command) (index : Nat) : Option String :=
  c.parameters[index]?

-- The text in front of the first comment mark `//`.
def beforeComment : List Char → List Char
  | [] => []
  | '/' :: '/' :: _ => []
  | c :: cs => c :: beforeComment cs

-- The fields of a text: what stands between the caret marks, trimmed, without the empty ones.
def fields (cs : List Char) : List (List Char) :=
  ((Text.split '^' cs).map Text.trim).filter (!·.isEmpty)

end Command

-- What a script line says.
inductive Line
  -- Nothing but white space and a comment.
  | blank
  -- Text, but fewer than two fields.
  | malformed (text : String)
  | command (c : Command)
  deriving DecidableEq, Repr

namespace Line

def ofFields (text : List Char) : List (List Char) → Line
  | name :: target :: parameters =>
    .command {
      name := String.ofList name
      target := String.ofList target
      parameters := parameters.map String.ofList
      text := String.ofList text }
  | _ => .malformed (String.ofList text)

def ofChars (cs : List Char) : Line :=
  let text := Text.trim (Command.beforeComment cs)
  if text.isEmpty then .blank else ofFields text (Command.fields text)

def ofString (s : String) : Line :=
  ofChars s.toList

def command? : Line → Option Command
  | command c => some c
  | _ => none

end Line

def Command.parse? (line : String) : Option Command :=
  (Line.ofString line).command?

end StationScript
