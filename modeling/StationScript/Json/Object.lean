import StationScript.Double.Shortest
import StationScript.Json.Literal

namespace StationScript.Json

inductive Value
  | natural (n : Nat)
  | double (x : Double)
  | boolean (b : Bool)
  | text (s : String)
  | texts (l : List String)
  deriving DecidableEq, Repr

abbrev Object :=
  List (String × Value)

-- The items with a separator between each two.
def separated (separator : String) (items : List String) : String :=
  String.intercalate separator items

-- A list over several lines, between brackets that stand in a line which is indented so far.
def block (opening closing indent : String) (items : List String) : String :=
  if items.isEmpty then opening ++ closing
  else
    opening ++ "\n" ++ separated ",\n" (items.map fun item => indent ++ "  " ++ item) ++ "\n" ++ indent ++ closing

-- A value in one line, but for a list of texts. JSON has no text for a double that is not finite.
def Value.plain : Value → String
  | natural n => Nat.repr n
  | double x => if x.isFinite then Double.compact.text x else "null"
  | boolean b => if b then "true" else "false"
  | text s => literal s
  | texts l => "[" ++ separated "," (l.map literal) ++ "]"

-- A value in as many lines as it has texts.
def Value.pretty : Value → String
  | texts l => block "[" "]" "  " (l.map literal)
  | v => v.plain

namespace Object

def compact (o : Object) : String :=
  "\x7b" ++ separated "," (o.map fun (name, v) => literal name ++ ":" ++ v.plain) ++ "\x7d"

def pretty (o : Object) : String :=
  block "\x7b" "\x7d" "" (o.map fun (name, v) => literal name ++ ": " ++ v.pretty)

end Object

end StationScript.Json
