import StationScript.Record.Json

namespace StationScript

inductive LogForm
  | grid
  | json
  | prettyJson
  deriving DecidableEq, Repr

namespace Publication

def tag : Publication → String
  | line _ => "LINE"
  | summary _ => "SUMMARY"

def toObject : Publication → Json.Object
  | line r => r.toObject
  | summary s => s.toObject

def gridLine : Publication → String
  | line r => r.row
  | summary s => s.closingLine

end Publication

namespace LogForm

-- What is printed, of a line of the grid or an object with its tag.
def print (f : LogForm) (gridLine tag : String) (o : Json.Object) : String :=
  match f with
  | grid => gridLine
  | json => "[" ++ tag ++ "] " ++ o.compact
  | prettyJson => "[" ++ tag ++ "] " ++ o.pretty

def text (f : LogForm) (p : Publication) : String :=
  f.print p.gridLine p.tag p.toObject

end LogForm

end StationScript
