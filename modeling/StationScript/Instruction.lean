import StationScript.Action
import StationScript.Command
import StationScript.CommandError
import StationScript.Text.Numeral
import StationScript.Verb

namespace StationScript

inductive Instruction
  | setOutput (name : String)
  | clearOutput (name : String)
  | extendSlide (name : String)
  | retractSlide (name : String)
  | move (component : Component) (point : String)
  | dialog (kind : DialogKind) (title message : String)
  | countdown (milliseconds : Nat)
  | wait (milliseconds : Nat)
  | laser (action : LaserAction)
  | read (channel : String)
  deriving DecidableEq, Repr

-- The text with its ASCII letters in upper case.
def Text.upper (s : String) : String :=
  s.map Char.toUpper

namespace Command

def required (c : Command) (index : Nat) (what : String) : Except CommandError String :=
  match c.parameter? index with
  | some p => .ok p
  | none => .error (.missingParameter index what)

-- The first parameter as one of a few keywords, in any case.
def choice {α : Type} (c : Command) (what : String) (choices : List (String × α)) : Except CommandError α := do
  let keyword := Text.upper (← c.required 0 what)
  match choices.lookup keyword with
  | some a => .ok a
  | none => .error (.invalidParameter what keyword)

-- The first parameter as a number of milliseconds.
def duration (c : Command) (what : String) : Except CommandError Nat := do
  let p ← c.required 0 what
  match Text.natural? p with
  | some n => .ok n
  | none => .error (.invalidParameter what p)

-- The component that the target addresses, and then the point to move to.
def destination (c : Command) : Except CommandError Instruction :=
  match Component.resolve? c.target with
  | some component => return .move component (← c.required 0 "point name")
  | none => .error (.unknownComponent c.target)

-- A dialog needs all its parameters before its kind is looked at.
def dialog (c : Command) : Except CommandError Instruction := do
  let keyword ← c.required 0 "dialog type"
  let title ← c.required 1 "dialog title"
  let message ← c.required 2 "dialog message"
  match DialogKind.ofKeyword? (Text.upper keyword) with
  | some kind => .ok (.dialog kind title message)
  | none => .error (.invalidParameter "dialog type" keyword)

-- The instruction that a command with this verb gives. Parameters beyond those that the verb needs are
-- left unread.
def instruction (c : Command) : Verb → Except CommandError Instruction
  | .setOutput => .ok (.setOutput c.target)
  | .clearOutput => .ok (.clearOutput c.target)
  | .slide => c.choice "slide action" [("ACTIVATE", .extendSlide c.target), ("DEACTIVATE", .retractSlide c.target)]
  | .move => c.destination
  | .showDialog => c.dialog
  | .showCountdown => return .countdown (← c.duration "countdown duration")
  | .wait => return .wait (← c.duration "wait duration")
  | .laserCurrent =>
    c.choice "laser current level" [("HIGH", .laser .highCurrent), ("LOW", .laser .lowCurrent)]
  | .laserPower => c.choice "laser power state" [("ON", .laser .laserOn), ("OFF", .laser .laserOff)]
  | .tecPower => c.choice "TEC power state" [("ON", .laser .tecOn), ("OFF", .laser .tecOff)]
  | .read => .ok (.read c.target)

end Command

end StationScript
