import StationScript.Double.Shortest
import StationScript.Text.Quoted

namespace StationScript

-- What a document holds in a place where something else was expected.
inductive Found
  | null
  | boolean (b : Bool)
  | integer (n : Int)
  -- An integer that fits no word, but two.
  | wideInteger (n : Int)
  | double (x : Double)
  | text (s : String)
  | sequence
  | map
  deriving DecidableEq, Repr

-- A kind of document names a missing value and writes doubles in its own way.
structure Found.Wording where
  null : String
  double : Double → String

def Found.describe (w : Found.Wording) : Found → String
  | null => w.null
  | boolean b => "boolean `" ++ (if b then "true" else "false") ++ "`"
  | integer n => "integer `" ++ Int.repr n ++ "`"
  | wideInteger n => "integer `" ++ Int.repr n ++ "` as " ++ (if n < 0 then "i128" else "u128")
  | double x => "floating point `" ++ w.double x ++ "`"
  | text s => "string " ++ Text.quoted s
  | sequence => "sequence"
  | map => "map"

end StationScript
