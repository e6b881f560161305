import StationScript.Text.Split

namespace StationScript.Text

-- The text without one carriage return at its end.
def dropReturn (cs : List Char) : List Char :=
  if cs.getLast? = some '\r' then cs.dropLast else cs

-- The lines among the pieces between line feeds. What follows the last line feed is a line if it is not
-- empty.
def linesOfPieces : List (List Char) → List (List Char)
  | [] => []
  | [last] => if last.isEmpty then [] else [last]
  | piece :: pieces => dropReturn piece :: linesOfPieces pieces

def lines (s : String) : List String :=
  (linesOfPieces (split '\n' s.toList)).map String.ofList

end StationScript.Text
