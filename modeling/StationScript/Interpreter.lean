import StationScript.Station

namespace StationScript

-- All that a line may change.
structure Bench where
  timeline : Timeline := {}
  devices : Devices := {}
  -- The output of the latest reading; empty before the first one.
  lastReading : String := ""
  -- The lines that the operator will type.
  input : List Typed := []
  deriving DecidableEq, Repr

structure Execution where
  success : Bool
  -- The command, with what it captured. There is none on a blank line, and none if the line was skipped.
  command : Option Command := none
  deriving DecidableEq, Repr

def Execution.output (x : Execution) : Option String :=
  x.command.bind (·.output)

-- The outcome of a line: how it went, all that took place, and the bench afterwards.
structure Outcome where
  execution : Execution
  trace : Trace
  bench : Bench
  deriving DecidableEq, Repr

namespace Bench

def isCancelled (b : Bench) (token : Token) : Bool :=
  b.timeline.isCancelled token

-- The bench after a trace that ended at a state of the clock.
def advance (b : Bench) (trace : Trace) (timeline : Timeline) : Bench where
  timeline
  devices := b.devices.applyAll trace.changes
  lastReading := trace.captures.getLastD b.lastReading
  input := b.input.drop trace.linesTaken

-- An outcome in which nothing but events took place.
def reportOnly (b : Bench) (execution : Execution) (events : List Event) : Outcome :=
  ⟨execution, events.map (.report .main), b⟩

end Bench

-- Follows the plan of a single call to a device, which nothing cancels.
def Bench.call (b : Bench) (plan : Plan) : Option (Verdict × Trace × Bench) := do
  let progress ← b.timeline.follow ⟨[]⟩ plan.effects
  some (plan.verdict, progress.trace, b.advance progress.trace progress.timeline)

inductive Ending
  | completed
  | failed (e : CommandError)
  | panicked
  | cancelled
  -- Cancelled by the operator, who declined the dialog with this title.
  | declined (title : String)
  deriving DecidableEq, Repr

namespace Ending

-- A plan that was cut ends cancelled; one that was not ends as its verdict says.
def ofVerdict (finished : Bool) (v : Verdict) : Ending :=
  if finished then
    match v with
    | .done => completed
    | .failed e => failed e
    | .declined title => declined title
    | .panicked => panicked
  else cancelled

-- The events that close a command.
def events (text : String) : Ending → List Event
  | completed => [.completed text]
  | failed e => [.commandFailed text e.message]
  | panicked => [.handlerPanicked text]
  | cancelled => [.cancelled text]
  | declined title => [.declined title, .cancelled text]

-- A declined dialog fires the trigger that the line was given.
def signal (trigger : Trigger) : Ending → Timeline → Timeline
  | declined _, t => t.fire trigger
  | _, t => t

def success : Ending → Bool
  | completed => true
  | _ => false

end Ending

structure Interpreter where
  station : Station
  settleDelay : Nat

namespace Interpreter

def plan (i : Interpreter) (input : List Typed) (c : Command) (v : Verb) : Plan :=
  match c.instruction v with
  | .ok instruction => i.station.plan i.settleDelay input instruction
  | .error e => .fail e

-- Follows the plan of a command, between the event that opens it and those that close it.
def runCommand (i : Interpreter) (b : Bench) (c : Command) (v : Verb) (token : Token) (trigger : Trigger) :
    Option Outcome := do
  let plan := i.plan b.input c v
  let progress ← b.timeline.follow token plan.effects
  let ending := Ending.ofVerdict progress.finished plan.verdict
  let trace :=
    [.report .main (.executing v c.text)] ++ progress.trace ++ (ending.events c.text).map (.report .main)
  some {
    execution := ⟨ending.success, some { c with output := progress.trace.captures.getLast? }⟩
    trace
    bench := b.advance trace (ending.signal trigger progress.timeline) }

-- Runs a line under a token, with the trigger that a declined dialog fires. A line under a cancelled token is
-- skipped without being read. There is no outcome if the line never ends.
def execute (i : Interpreter) (b : Bench) (line : String) (token : Token) (trigger : Trigger) : Option Outcome :=
  if b.isCancelled token then some (b.reportOnly ⟨false, none⟩ [.lineSkipped (Text.trimmed line)])
  else
    match Line.ofString line with
    | .command c =>
      match Verb.ofName? c.name with
      | some v => i.runCommand b c v token trigger
      | none => some (b.reportOnly ⟨false, some c⟩ [.unknownCommand c.name])
    | other => some (b.reportOnly ⟨true, none⟩ other.warnings)

end Interpreter

end StationScript
