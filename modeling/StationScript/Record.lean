import StationScript.Instant
import StationScript.Text.Padding

namespace StationScript

structure LineRecord where
  -- The position in the script, from 1.
  number : Nat
  executedAt : Instant
  commandText : String
  success : Bool
  output : String
  deriving DecidableEq, Repr

structure RunSummary where
  total : Nat := 0
  succeeded : Nat := 0
  failed : Nat := 0
  -- Lines that were cut short or skipped because the run was cancelled.
  cancelled : Nat := 0
  -- How long the run took, in milliseconds.
  elapsed : Nat := 0
  -- When the run ended, in seconds since the start of 1970.
  timestamp : Double := .zero false
  deriving DecidableEq, Repr

def RunSummary.allSucceeded (s : RunSummary) : Bool :=
  s.failed == 0 && s.cancelled == 0

-- What is handed to whoever follows a run.
inductive Publication
  | line (r : LineRecord)
  | summary (s : RunSummary)
  deriving DecidableEq, Repr

namespace LineRecord

-- A row of the run grid, around the time of day that it shows.
def rowAt (r : LineRecord) (time : String) : String :=
  Text.padLeft 4 (Nat.repr r.number) ++ " | " ++ time ++ " | " ++
    Text.padRight 4 (if r.success then "OK" else "FAIL") ++
    " | " ++ Text.padRight 48 r.commandText ++ " | " ++ r.output

def row (r : LineRecord) : String :=
  r.rowAt r.executedAt.clockMillis

end LineRecord

def RunSummary.closingLine (s : RunSummary) : String :=
  Nat.repr s.total ++ " lines: " ++ Nat.repr s.succeeded ++ " succeeded, " ++ Nat.repr s.failed ++ " failed, " ++
    Nat.repr s.cancelled ++ " cancelled in " ++ Nat.repr s.elapsed ++ " ms"

end StationScript
