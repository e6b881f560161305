import StationScript.Event
import StationScript.Json.Object
import StationScript.Json.Reader
import StationScript.LoadError
import StationScript.Text.Lines

namespace StationScript

-- The version of the documents that are written.
def scriptVersion : String :=
  "1.0"

structure Script where
  version : String := scriptVersion
  commands : List String := []
  deriving DecidableEq, Repr

namespace Script

def shape : Json.Shape :=
  ⟨"ScriptDocument", [("Version", .text), ("Commands", .texts)]⟩

def toObject (s : Script) : Json.Object :=
  [("Version", .text s.version), ("Commands", .texts s.commands)]

def ofData? : List Json.Datum → Option Script
  | [.text version, .texts commands] => some ⟨version, commands⟩
  | _ => none

def render (s : Script) : String :=
  s.toObject.pretty

def ofText (text : String) : Except LoadError Script :=
  match shape.read text.toList with
  | .ok data => .ok ((ofData? data).getD {})
  | .error fault => .error (.ofFault text fault)

def ofPlainText (text : String) : Script :=
  { commands := Text.lines text }

def warnings (path : String) (s : Script) : List Event :=
  if s.version = StationScript.scriptVersion then []
  else [.scriptVersion path s.version StationScript.scriptVersion]

def readFile (a : Access) (path : String) : Except LoadError String :=
  (a.read path).mapError (.scriptUnreadable path)

def load (a : Access) (path : String) : Except LoadError (Script × List Event) := do
  let s ← ofText (← readFile a path)
  return (s, s.warnings path)

-- Whether a path is named as a saved script.
def isDocument (path : String) : Bool :=
  Path.extension? path == some "script" || Path.extension? path == some "json"

-- Loads what is at a path, in the form that its name tells.
def «open» (a : Access) (path : String) : Except LoadError (Script × List Event) :=
  if isDocument path then load a path
  else return (ofPlainText (← readFile a path), [])

def save (s : Script) (f : Files) (path : String) : Except LoadError Files :=
  (f.write path s.render).mapError .file

end Script

end StationScript
