import StationScript.Action
import StationScript.Command
import StationScript.Settings
import StationScript.Text.Padding
import StationScript.Text.Terminal
import StationScript.Verb

namespace StationScript

inductive Level
  | error
  | warn
  | info
  | debug
  deriving DecidableEq, Repr

namespace Level

def label : Level → String
  | error => "ERROR"
  | warn => "WARN"
  | info => "INFO"
  | debug => "DEBUG"

-- How much a level lets through: a log that shows a level shows all that are smaller.
def verbosity : Level → Nat
  | error => 1
  | warn => 2
  | info => 3
  | debug => 4

end Level

inductive Event
  -- reading a line
  | malformedLine (text : String)
  | lineSkipped (text : String)
  | unknownCommand (name : String)
  -- running a command
  | executing (verb : Verb) (text : String)
  | completed (text : String)
  | cancelled (text : String)
  | commandFailed (text reason : String)
  | handlerPanicked (text : String)
  | moving (component : Component) (point : String)
  | declined (title : String)
  | reading (target text : String)
  -- the devices
  | outputSet (name : String)
  | outputCleared (name : String)
  | slideActivated (name : String)
  | slideDeactivated (name : String)
  | axisMoving (component : Component) (point : String)
  | confirmationIgnored (component : Component)
  | laserSwitched (action : LaserAction)
  | countdown (seconds : Nat)
  | dialogAnswered (title message : String) (answer : Answer)
  | answerRejected
  | motionSkipped (component : String)
  -- the thread of the operator surface
  | surfacePanicked (thread : String)
  | surfaceStopped (thread : String)
  -- a run
  | rowIgnored (number lines : Nat)
  | runStarted (lines : Nat) (scope : CancellationScope)
  | stopping (line : Nat)
  | runFinished (succeeded failed cancelled : Nat)
  | lineUnpublished (line : Nat) (reason : String)
  | summaryUnpublished (reason : String)
  -- documents
  | scriptVersion (path version expected : String)
  -- the command line
  | usingSettings (path : String)
  | banner
  | rule
  | dialogThread (thread : String)
  | lastReading (text : String)
  | runComplete
  | runIncomplete (failed cancelled : Nat)
  | unknownInLine (line : Nat) (name : String)
  | linesOk (lines : Nat)
  deriving DecidableEq, Repr

namespace Event

def level : Event → Level
  | malformedLine _ | declined _ | answerRejected | motionSkipped _ | rowIgnored _ _ | lineUnpublished _ _
  | summaryUnpublished _ | scriptVersion _ _ _ => .warn
  | unknownCommand _ | commandFailed _ _ | handlerPanicked _ | surfacePanicked _ | runIncomplete _ _
  | unknownInLine _ _ => .error
  | lineSkipped _ | completed _ | moving _ _ | confirmationIgnored _ | surfaceStopped _ => .debug
  | executing _ _ | cancelled _ | reading _ _ | outputSet _ | outputCleared _ | slideActivated _
  | slideDeactivated _ | axisMoving _ _ | laserSwitched _ | countdown _ | dialogAnswered _ _ _ | runStarted _ _
  | stopping _ | runFinished _ _ _ | usingSettings _ | banner | rule | dialogThread _ | lastReading _
  | runComplete | linesOk _ => .info

def message : Event → String
  | malformedLine text => "Malformed command line (need NAME ^ TARGET): '" ++ text ++ "'"
  | lineSkipped text => "Run cancelled, skipping line: " ++ text
  | unknownCommand name => "Unknown command: " ++ name
  | executing verb text => "Executing " ++ verb.name ++ ": " ++ text
  | completed text => "Completed: " ++ text
  | cancelled text => "Cancelled: " ++ text
  | commandFailed text reason => "Error executing command '" ++ text ++ "': " ++ reason
  | handlerPanicked text => "Handler panicked while executing '" ++ text ++ "'"
  | moving component point =>
    "Moving " ++ component.name ++ " (index " ++ Nat.repr component.index ++ ") to " ++ point
  | declined title => "Operator answered No to '" ++ title ++ "', cancelling remaining run"
  | reading target text => "READ " ++ target ++ " = " ++ text
  | outputSet name => "Output " ++ name ++ " set"
  | outputCleared name => "Output " ++ name ++ " cleared"
  | slideActivated name => "Slide " ++ name ++ " activated"
  | slideDeactivated name => "Slide " ++ name ++ " deactivated"
  | axisMoving component point => component.name ++ " moving to " ++ point
  | confirmationIgnored component => component.name ++ ": confirmation dialog requested, not simulated"
  | laserSwitched action => "Laser/TEC: " ++ action.text
  | countdown seconds => "Countdown: " ++ Nat.repr seconds ++ "s remaining"
  | dialogAnswered title message answer => "Dialog '" ++ title ++ "': " ++ message ++ " -> " ++ answer.name
  | answerRejected => "Please answer y or n"
  | motionSkipped component => "Skipping unknown motion component '" ++ component ++ "'"
  | surfacePanicked thread => "Presentation job panicked on " ++ thread
  | surfaceStopped thread => "Presentation thread " ++ thread ++ " stopped"
  | rowIgnored number lines =>
    "Ignoring selected row " ++ Nat.repr number ++ ": script has " ++ Nat.repr lines ++ " lines"
  | runStarted lines scope =>
    "Run started: " ++ Nat.repr lines ++ " lines (" ++ scope.label ++ " cancellation scope)"
  | stopping line => "Stopping after failure on line " ++ Nat.repr line
  | runFinished succeeded failed cut =>
    "Run finished: " ++ Nat.repr succeeded ++ " succeeded, " ++ Nat.repr failed ++ " failed, " ++
      Nat.repr cut ++ " cancelled"
  | lineUnpublished line reason => "Failed to publish line " ++ Nat.repr line ++ ": " ++ reason
  | summaryUnpublished reason => "Failed to publish run summary: " ++ reason
  | scriptVersion path version expected =>
    path ++ " has script version " ++ version ++ ", expected " ++ expected
  | usingSettings path => "Using config: " ++ path
  | banner => "Sequence Interpreter (Rust)"
  | rule => String.ofList (List.replicate 50 '=')
  | dialogThread thread => "Dialogs run on thread '" ++ thread ++ "'"
  | lastReading text => "Last reading: " ++ text
  | runComplete => "Run complete"
  | runIncomplete failed cut =>
    "Run incomplete: " ++ Nat.repr failed ++ " failed, " ++ Nat.repr cut ++ " cancelled"
  | unknownInLine line name => "Line " ++ Nat.repr line ++ ": unknown command " ++ name
  | linesOk lines => Nat.repr lines ++ " lines OK"

-- The part of the program that reports an event, as filters of the log name it.
def source : Event → String
  | malformedLine _ => "seqd::command"
  | lineSkipped _ | unknownCommand _ | executing _ _ | completed _ | cancelled _ | commandFailed _ _
  | handlerPanicked _ | moving _ _ | declined _ | reading _ _ => "seqd::interpreter"
  | outputSet _ | outputCleared _ | slideActivated _ | slideDeactivated _ | axisMoving _ _
  | confirmationIgnored _ | laserSwitched _ | countdown _ | dialogAnswered _ _ _ | answerRejected
  | motionSkipped _ => "seqd::sim"
  | surfacePanicked _ | surfaceStopped _ => "seqd::presentation"
  | rowIgnored _ _ | runStarted _ _ | stopping _ | runFinished _ _ _ | lineUnpublished _ _
  | summaryUnpublished _ => "seqd::runner"
  | scriptVersion _ _ _ => "seqd::script"
  | usingSettings _ | banner | rule | dialogThread _ | lastReading _ | runComplete | runIncomplete _ _
  | unknownInLine _ _ | linesOk _ => "seqd"

-- The event as a line of the log, behind the time it carries. The level is aligned right in five columns.
def logLine (time : String) (e : Event) : String :=
  time ++ " " ++ Text.padLeft 5 e.level.label ++ " " ++ Text.terminalSafe e.message ++ "\n"

end Event

-- What reading a line reports: a warning if there is text that makes no command.
def Line.warnings : Line → List Event
  | malformed text => [.malformedLine text]
  | _ => []

end StationScript
