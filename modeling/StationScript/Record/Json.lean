import StationScript.Json.Object
import StationScript.Json.Reader
import StationScript.LoadError
import StationScript.Record

namespace StationScript

namespace LineRecord

def shape : Json.Shape :=
  ⟨"LineRecord",
    [("number", .word "usize"), ("executed_at", .instant), ("command_text", .text), ("success", .boolean),
     ("output", .text)]⟩

-- The record as an object, around the text for the instant that it shows.
def toObjectAt (r : LineRecord) (time : String) : Json.Object :=
  [("number", .natural r.number), ("executed_at", .text time), ("command_text", .text r.commandText),
   ("success", .boolean r.success), ("output", .text r.output)]

def toObject (r : LineRecord) : Json.Object :=
  r.toObjectAt r.executedAt.text

def ofData? : List Json.Datum → Option LineRecord
  | [.word number, .instant executedAt, .text commandText, .boolean success, .text output] =>
    some ⟨number, executedAt, commandText, success, output⟩
  | _ => none

def ofText (text : String) : Except LoadError LineRecord :=
  match shape.read text.toList with
  | .ok data => .ok ((ofData? data).getD ⟨0, ⟨0⟩, "", false, ""⟩)
  | .error fault => .error (.ofFault text fault)

end LineRecord

namespace RunSummary

def shape : Json.Shape :=
  ⟨"RunSummary",
    [("total", .word "usize"), ("succeeded", .word "usize"), ("failed", .word "usize"),
     ("cancelled", .word "usize"), ("elapsed_ms", .word "u64"), ("timestamp", .double)]⟩

def toObject (s : RunSummary) : Json.Object :=
  [("total", .natural s.total), ("succeeded", .natural s.succeeded), ("failed", .natural s.failed),
   ("cancelled", .natural s.cancelled), ("elapsed_ms", .natural s.elapsed), ("timestamp", .double s.timestamp)]

def ofData? : List Json.Datum → Option RunSummary
  | [.word total, .word succeeded, .word failed, .word cancelled, .word elapsed, .double timestamp] =>
    some ⟨total, succeeded, failed, cancelled, elapsed, timestamp⟩
  | _ => none

def ofText (text : String) : Except LoadError RunSummary :=
  match shape.read text.toList with
  | .ok data => .ok ((ofData? data).getD {})
  | .error fault => .error (.ofFault text fault)

end RunSummary

end StationScript
