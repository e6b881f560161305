import StationScript.CommandLine.Invocation
import Std.Time.DateTime.Timestamp

namespace StationScript.Main

def now : IO Instant := do
  return .ofMilliseconds (← Std.Time.Timestamp.now).toMillisecondsSinceUnixEpoch.toInt

def fileError : IO.Error → FileError
  | .noFileOrDirectory .. => .notFound
  | .inappropriateType .. => .isDirectory
  | e => .other (toString e)

def readFile (path : String) : IO (Except FileError String) := do
  try
    let bytes ← IO.FS.readBinFile path
    return match String.fromUTF8? bytes with
      | some s => .ok s
      | none => .error .notText
  catch e => return .error (fileError e)

-- The files that a call may read.
def paths (environment : List (String × String)) (a : Arguments) : List String :=
  let script := match a.task with
    | .run script .. | .check script => [script]
    | .commands => []
  (a.settingsPath <|> environment.lookup "SEQD_CONFIG").getD Settings.defaultPath :: script

def access (paths : List String) : IO Access := do
  let contents ← paths.mapM fun path => return (path, ← readFile path)
  let lookUp (path : String) := (contents.lookup path).getD (.error .notFound)
  return {
    read := lookUp
    contains := fun path => match lookUp path with
      | .error .notFound => false
      | _ => true }

-- The outputs up to the question that nothing was typed for yet, if there is one.
def upToQuestion : List Output → Option (List Output)
  | [] => none
  | .effect (.prompt text) :: .effect .takeLine :: rest =>
    (upToQuestion rest).map ([.effect (.prompt text), .effect .takeLine] ++ ·)
  | .effect (.prompt text) :: _ => some [.effect (.prompt text)]
  | o :: rest => (upToQuestion rest).map (o :: ·)

def present (r : Report) (o : Output) : IO Unit := do
  match o with
  | .effect (.wait n) => IO.sleep n.toUInt32
  | o =>
    let time := (← now).stamp
    (← IO.getStderr).putStr (o.errorText r.filter time)
    match o.text? r.form.text with
    | some text => IO.println text
    | none => pure ()

-- The bytes up to the next line feed. There are none at the end of the input.
partial def nextBytes (input : IO.FS.Stream) (before : ByteArray) : IO ByteArray := do
  let b ← input.read 1
  if b.isEmpty ∨ b.toList = ['\n'.toUInt8] then return before ++ b else nextBytes input (before ++ b)

-- The next line on standard input.
def typedLine : IO (Option Typed) := do
  let bytes ← nextBytes (← IO.getStdin) .empty
  return if bytes.isEmpty then none else
    match String.fromUTF8? bytes with
    | some s => (Typed.lines s).head?
    | none => some .binary

partial def typedLines : IO (List Typed) := do
  match ← typedLine with
  | some line => return line :: (← typedLines)
  | none => return []

-- Plays a call. So many outputs were shown before; the input may be complete. What is put out follows from all that was
-- typed, so that the call is computed again after each line, and its clock stands still while the operator thinks.
partial def play (i : Invocation) (shown : Nat) (complete : Bool) : IO UInt32 := do
  match i.report with
  | none => return 1
  | some r =>
    match if complete then none else upToQuestion r.output with
    | none =>
      (r.output.drop shown).forM (present r)
      return r.status.toUInt32
    | some output =>
      (output.drop shown).forM (present r)
      let line ← typedLine
      play { i with input := i.input ++ line.toList } output.length line.isNone

def environment : IO (List (String × String)) := do
  let pairs ← ["SEQD_CONFIG", "RUST_LOG"].mapM fun name =>
    return (← IO.getEnv name).map fun value => (name, value)
  return pairs.filterMap id

-- Whether a script is read from standard input.
def readsInput (a : Arguments) : Bool :=
  match a.task with
  | .run script .. | .check script => script == "-"
  | .commands => false

def call (arguments : List String) : IO UInt32 := do
  let environment ← environment
  let start (files : Access) (input : List Typed) : IO Invocation :=
    return { arguments, environment, files, input, origin := ← now }
  match Arguments.ofList arguments with
  | .error _ => play (← start ⟨fun _ => .error .notFound, fun _ => false⟩ []) 0 true
  | .ok a => do
    let files ← access (paths environment a)
    if readsInput a then play (← start files (← typedLines)) 0 true else play (← start files []) 0 false

end StationScript.Main

def main (arguments : List String) : IO UInt32 :=
  StationScript.Main.call arguments
