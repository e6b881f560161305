import StationScript.Interpreter

namespace StationScript

-- A line of a script with its position, counted from 0.
structure Row where
  index : Nat
  text : String
  deriving DecidableEq, Repr

namespace Row

def number (r : Row) : Nat :=
  r.index + 1

def ofLines (lines : List String) : List Row :=
  lines.zipIdx.map fun (text, index) => ⟨index, text⟩

-- The rows that a selection of positions asks for, in the order of the script and each once. An empty
-- selection asks for all.
def select (lines : List String) (selection : List Nat) : List Row :=
  if selection.isEmpty then ofLines lines else (ofLines lines).filter (selection.contains ·.index)

-- The number by which a selected position is reported; it does not go beyond a word of 64 bits.
def reportedNumber (index : Nat) : Nat :=
  min (index + 1) (Text.wordLimit - 1)

-- A warning for every selected position that the script does not have.
def warnings (lines : List String) (selection : List Nat) : List Event :=
  (selection.filter (lines.length ≤ ·)).map fun index => .rowIgnored (reportedNumber index) lines.length

end Row

inductive RowStatus
  | succeeded
  | failed
  | cancelled
  deriving DecidableEq, Repr

-- A row that did not succeed counts as cancelled if its token is cancelled afterwards.
def RowStatus.of (success cancelled : Bool) : RowStatus :=
  if success then succeeded else if cancelled then .cancelled else failed

namespace Execution

def failureText : String :=
  "Command failed"

def successText : String :=
  "Command executed successfully"

-- What the run log shows for a line: a reading shows what it read, a wait how long it was asked to take.
def describe (x : Execution) : String :=
  match x.success, x.command with
  | false, _ => failureText
  | true, none => ""
  | true, some c =>
    match Verb.ofName? c.name with
    | some .read => c.output.getD Reading.missing
    | some .wait => "Waited " ++ (c.parameter? 0).getD "" ++ " ms"
    | _ => successText

end Execution

namespace RunSummary

def count (s : RunSummary) : RowStatus → RunSummary
  | .succeeded => { s with total := s.total + 1, succeeded := s.succeeded + 1 }
  | .failed => { s with total := s.total + 1, failed := s.failed + 1 }
  | .cancelled => { s with total := s.total + 1, cancelled := s.cancelled + 1 }

end RunSummary

-- Whoever follows a run: handing over a record or the totals fails for a reason, or does not fail.
structure Publisher where
  line : LineRecord → Option String
  summary : RunSummary → Option String

-- A publisher that takes everything.
def Publisher.accepting : Publisher :=
  ⟨fun _ => none, fun _ => none⟩

structure RowOutcome where
  record : LineRecord
  status : RowStatus
  trace : Trace
  bench : Bench
  deriving DecidableEq, Repr

structure RowsOutcome where
  records : List LineRecord
  -- The counts; neither the time taken nor the time stamp is filled in.
  summary : RunSummary
  trace : Trace
  bench : Bench
  deriving DecidableEq, Repr

structure RunOutcome where
  records : List LineRecord
  summary : RunSummary
  trace : Trace
  bench : Bench
  deriving DecidableEq, Repr

structure Runner where
  interpreter : Interpreter
  settings : RunnerSettings
  publisher : Publisher
  -- The operator's abort. It stops the run it reaches and every later one.
  abort : Trigger
  token : Token
  origin : Instant

namespace Runner

-- A runner, and the bench with the runner's own scope opened.
def «open» (i : Interpreter) (settings : RunnerSettings) (publisher : Publisher) (origin : Instant) (b : Bench) :
    Runner × Bench :=
  let (signals, abort, token) := b.timeline.signals.scope
  ({ interpreter := i, settings, publisher, abort, token, origin },
    { b with timeline := { b.timeline with signals } })

def instant (r : Runner) (b : Bench) : Instant :=
  r.origin.addMilliseconds b.timeline.now

-- The scope under which a line runs: the scope of the run, or one of its own inside it.
def lineScope (r : Runner) (b : Bench) (trigger : Trigger) (token : Token) : Bench × Trigger × Token :=
  match r.settings.cancellationScope with
  | .run => (b, trigger, token)
  | .line =>
    let (signals, inner) := b.timeline.signals.child token
    ({ b with timeline := { b.timeline with signals } }, inner)

-- Publishing a record, and the warning if that fails.
def publishLine (r : Runner) (record : LineRecord) : Trace :=
  .publish (.line record) ::
    match r.publisher.line record with
    | some reason => [.report .main (.lineUnpublished record.number reason)]
    | none => []

def publishSummary (r : Runner) (summary : RunSummary) : Trace :=
  .publish (.summary summary) ::
    match r.publisher.summary summary with
    | some reason => [.report .main (.summaryUnpublished reason)]
    | none => []

-- Runs one row within the scope of the run.
def row (r : Runner) (b : Bench) (trigger : Trigger) (token : Token) (row : Row) : Option RowOutcome := do
  let (b, trigger, token) := r.lineScope b trigger token
  let o ← r.interpreter.execute b row.text token trigger
  let record := {
    number := row.number
    executedAt := r.instant b
    commandText := Text.trimmed row.text
    success := o.execution.success
    output := o.execution.describe }
  some {
    record
    status := .of o.execution.success (o.bench.isCancelled token)
    trace := o.trace ++ r.publishLine record
    bench := o.bench }

-- Whether a run ends with a row that is counted so.
def stopsAt (r : Runner) (status : RowStatus) : Bool :=
  r.settings.stopOnFailure && status == .failed

-- Runs rows in order, until there are no more or one of them ends the run.
def rows (r : Runner) (trigger : Trigger) (token : Token) (b : Bench) (summary : RunSummary) :
    List Row → Option RowsOutcome
  | [] => some ⟨[], summary, [], b⟩
  | row :: rest => do
    let o ← r.row b trigger token row
    let summary := summary.count o.status
    if r.stopsAt o.status then
      some ⟨[o.record], summary, o.trace ++ [.report .main (.stopping o.record.number)], o.bench⟩
    else
      let later ← r.rows trigger token o.bench summary rest
      some { later with records := o.record :: later.records, trace := o.trace ++ later.trace }

def runRows (r : Runner) (b : Bench) (rows : List Row) : Option RunOutcome := do
  let (signals, trigger, token) := b.timeline.signals.child r.token
  let start := b.timeline.now
  let o ← r.rows trigger token { b with timeline := { b.timeline with signals } } {} rows
  let summary := { o.summary with
    -- The milliseconds, as many of them as a word of 64 bits holds.
    elapsed := (o.bench.timeline.now - start) % Text.wordLimit
    timestamp := (r.instant o.bench).seconds }
  let trace :=
    [.report .main (.runStarted rows.length r.settings.cancellationScope)] ++ o.trace ++
      [.report .main (.runFinished summary.succeeded summary.failed summary.cancelled)] ++
      r.publishSummary summary
  some ⟨o.records, summary, trace, o.bench⟩

-- Runs the selected lines of a script, or all of them if the selection is empty.
def run (r : Runner) (b : Bench) (lines : List String) (selection : List Nat) : Option RunOutcome := do
  let o ← r.runRows b (Row.select lines selection)
  some { o with trace := (Row.warnings lines selection).map (.report .main) ++ o.trace }

end Runner

end StationScript
