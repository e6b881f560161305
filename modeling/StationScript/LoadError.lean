import StationScript.Files
import StationScript.Json.Fault

namespace StationScript

inductive LoadError
  | settingsUnreadable (path : String) (e : FileError)
  -- A motion entry of the settings addresses no component.
  | unknownComponent (name : String)
  | scriptUnreadable (path : String) (e : FileError)
  | file (e : FileError)
  | json (message : String)
  | yaml (message : String)
  deriving DecidableEq, Repr

namespace LoadError

-- The cause that another format or the file system names.
def cause? : LoadError → Option String
  | settingsUnreadable _ _ | unknownComponent _ | scriptUnreadable _ _ => none
  | file e => some e.message
  | json message | yaml message => some message

def message : LoadError → String
  | settingsUnreadable path e => "Configuration error: Failed to read " ++ path ++ ": " ++ e.message
  | unknownComponent name => "Configuration error: Unknown motion component '" ++ name ++ "'"
  | scriptUnreadable path e => "Script error: Failed to read " ++ path ++ ": " ++ e.message
  | file e => "IO error: " ++ e.message
  | json message => "JSON error: " ++ message
  | yaml message => "YAML parsing error: " ++ message

def ofFault (text : String) (f : Json.Fault) : LoadError :=
  json (f.message text.toList)

end LoadError

end StationScript
