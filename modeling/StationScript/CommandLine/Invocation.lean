import StationScript.CommandLine.Arguments
import StationScript.CommandLine.LogFilter
import StationScript.Run
import StationScript.Script
import StationScript.Settings.Reader

namespace StationScript

-- A call of the program, with what it can see of the world.
structure Invocation where
  arguments : List String
  environment : List (String × String) := []
  files : Access
  -- The lines on standard input.
  input : List Typed := []
  origin : Instant

inductive Output
  -- Something that took place: an event for the log, a question, time that passes, an entry of the run log.
  | effect (e : Effect)
  | line (text : String)
  -- A text on standard error that is no event.
  | message (text : String)
  deriving DecidableEq, Repr

structure Report where
  status : Nat
  output : List Output := []
  filter : LogFilter := .standard
  form : LogForm := .grid
  deriving DecidableEq, Repr

namespace Output

def notice (e : Event) : Output :=
  effect (.report .main e)

def notices (l : List Event) : List Output :=
  l.map notice

-- What an output puts on standard error, where events are shown with the time.
def errorText (filter : LogFilter) (time : String) : Output → String
  | effect (.report _ e) => if filter.shows e then e.logLine time else ""
  | effect (.prompt text) => text
  | message text => text
  | _ => ""

def publication? : Output → Option Publication
  | effect e => e.publication?
  | _ => none

-- What an output puts on standard output, given the text of an entry of the run log.
def text? (entry : Publication → String) : Output → Option String
  | effect e => e.publication?.map entry
  | line text => some text
  | message _ => none

end Output

namespace Report

def errorText (r : Report) (time : String) : String :=
  String.join (r.output.map (·.errorText r.filter time))

def lines (r : Report) (entry : Publication → String) : List String :=
  r.output.filterMap (·.text? entry)

def publications (r : Report) : List Publication :=
  r.output.filterMap (·.publication?)

def after (first : List Output) (r : Report) : Report :=
  { r with output := first ++ r.output }

end Report

inductive Failure
  | settings (e : LoadError)
  | script (path : String) (e : LoadError)
  -- A script on standard input that is no text.
  | inputNotText
  | dialogAnswer (answer : String)
  | rowZero
  | unknownCommands (count : Nat)
  deriving DecidableEq, Repr

namespace Failure

-- A text behind a heading, with its further lines indented below the first one.
def headed (heading : String) (text : String) : String :=
  let indent := String.ofList ('\n' :: List.replicate heading.length ' ')
  heading ++ String.intercalate indent ((Text.split '\n' text.toList).map String.ofList)

-- What led to a failure: the error, and its own cause if it has one.
def causes (e : LoadError) : String :=
  "\n\nCaused by:\n" ++
    match e.cause? with
    | none => headed "    " e.message
    | some cause => headed "    0: " e.message ++ "\n" ++ headed "    1: " cause

def message : Failure → String
  | settings e => "Failed to load configuration" ++ causes e
  | script path e => "Failed to load script " ++ path ++ causes e
  | inputNotText => FileError.notText.message
  | dialogAnswer answer => "Unknown dialog answer '" ++ answer ++ "': expected prompt, yes or no"
  | rowZero => "Rows are numbered from 1"
  | unknownCommands count => Nat.repr count ++ " unknown command(s) in script"

def report (f : Failure) : Report where
  status := 1
  output := [.message ("Error: " ++ f.message ++ "\n")]

end Failure

-- A script as it was loaded, what loading it reported, and the input that is left for dialogs.
structure Loaded where
  lines : List String
  events : List Event := []
  input : List Typed := []
  deriving DecidableEq, Repr

-- Loads a script from a path, or from standard input, which is then used up.
def Invocation.load (i : Invocation) (source : String) : Except Failure Loaded :=
  if source = "-" then
    match i.input.mapM Typed.text? with
    | some lines => .ok { lines }
    | none => .error .inputNotText
  else
    match Script.open i.files source with
    | .ok (s, events) => .ok ⟨s.commands, events, i.input⟩
    | .error e => .error (.script source e)

-- The events for lines that name no known command, and for lines that are none.
def checkEvents (lines : List String) : List Event :=
  lines.zipIdx.flatMap fun (text, index) =>
    match Line.ofString text with
    | .command c => if (Verb.ofName? c.name).isSome then [] else [.unknownInLine (index + 1) c.name]
    | other => other.warnings

def Event.isUnknown : Event → Bool
  | unknownInLine _ _ => true
  | _ => false

def checkReport (lines : List String) : Report :=
  let events := checkEvents lines
  let unknown := (events.filter (·.isUnknown)).length
  let closing : Report :=
    if unknown = 0 then { status := 0, output := [.notice (.linesOk lines.length)] }
    else (Failure.unknownCommands unknown).report
  closing.after (Output.notices events)

def surfaceName : String :=
  "operator-surface"

-- The positions of selected rows, which are numbered from 1.
def positions (numbers : List Nat) : Except Failure (List Nat) :=
  if numbers.contains 0 then .error .rowZero else .ok (numbers.map (· - 1))

def policyOf (answer : String) : Except Failure DialogPolicy :=
  let answer := answer.map Char.toLower
  match DialogPolicy.ofName? answer with
  | some p => .ok p
  | none => .error (.dialogAnswer answer)

-- The thread for the dialogs of a station: one of its own if the operator is asked.
def surfaceFor : DialogPolicy → Option String
  | .prompt => some surfaceName
  | _ => none

def closing (o : RunOutcome) (surface : Option String) : Report :=
  let reading := if o.bench.lastReading = "" then [] else [.lastReading o.bench.lastReading]
  let s := o.summary
  if s.allSucceeded then
    { status := 0
      output :=
        Output.notices (reading ++ [.runComplete]) ++
          surface.toList.map fun thread => .effect (.report .surface (.surfaceStopped thread)) }
  else { status := 1, output := Output.notices (reading ++ [.runIncomplete s.failed s.cancelled]) }

-- Runs lines on the station that the settings describe. Without a report the run never ends.
def runReport (settings : Settings) (origin : Instant) (script : Loaded) (selection : List Nat) :
    Option Report := do
  let surface := surfaceFor settings.simulation.dialog
  let station := { Station.ofSettings settings.simulation with surface }
  let interpreter := ⟨station, settings.interpreter.settleDelay⟩
  let (runner, bench) := Runner.open interpreter settings.runner .accepting origin { input := script.input }
  let o ← runner.run bench script.lines selection
  let opening := [.banner, .rule] ++ surface.toList.map .dialogThread
  some ((closing o surface).after (Output.notices opening ++ o.trace.map .effect))

def Settings.withOptions (s : Settings) (dialog : Option DialogPolicy) (stopOnFailure : Bool) : Settings :=
  { s with
    runner := { s.runner with stopOnFailure := s.runner.stopOnFailure || stopOnFailure }
    simulation := { s.simulation with dialog := dialog.getD s.simulation.dialog } }

namespace Invocation

def orFailure {α : Type} (r : Except Failure α) (next : α → Option Report) : Option Report :=
  match r with
  | .ok a => next a
  | .error f => some f.report

def perform (i : Invocation) (settings : Settings) : Task → Option Report
  | .commands => some { status := 0, output := Verb.sortedNames.map .line }
  | .check source => orFailure (i.load source) fun script =>
    some ((checkReport script.lines).after (Output.notices script.events))
  | .run source select dialog stopOnFailure form =>
    orFailure (dialog.mapM policyOf) fun dialog =>
      orFailure (i.load source) fun script =>
        let report :=
          orFailure (positions select) fun selection =>
            runReport (settings.withOptions dialog stopOnFailure) i.origin script selection
        report.map fun r => { r.after (Output.notices script.events) with form }

-- The path of the settings: from the arguments, or else from the environment.
def settingsPath (i : Invocation) (a : Arguments) : Option String :=
  a.settingsPath <|> i.environment.lookup "SEQD_CONFIG"

def obey (i : Invocation) (a : Arguments) : Option Report := do
  let (filter, complaints) := LogFilter.choose a.logLevel (i.environment.lookup "RUST_LOG")
  let path := i.settingsPath a
  let r ← orFailure ((Settings.loadOrDefault i.files path).mapError .settings) fun settings =>
    (i.perform settings a.task).map (·.after (Output.notices (path.toList.map .usingSettings)))
  some { r.after (complaints.map .message) with filter }

def stopped : Stop → Report
  | .usage => { status := 2, output := [.message "usage: seqd [OPTIONS] run|check|commands\n"] }
  | .help => { status := 0, output := [.line "usage: seqd [OPTIONS] run|check|commands"] }
  | .version => { status := 0, output := [.line "seqd 0.1.0"] }

-- What a call comes to. Without a report it never ends.
def report (i : Invocation) : Option Report :=
  match Arguments.ofList i.arguments with
  | .ok a => i.obey a
  | .error stop => some (stopped stop)

end Invocation

end StationScript
