import StationScript.Event
import StationScript.Timeline

namespace StationScript

inductive Job (α : Type)
  -- Returns a value, for which it may ask on which thread it runs.
  | run (f : (thread : String) → α)
  | panic
  -- Holds the thread until its submitter has stopped waiting.
  | hold

inductive Response (α : Type)
  | value (a : α)
  -- The thread with this name dropped the request.
  | dropped (thread : String)
  | cancelled
  deriving DecidableEq, Repr

-- The text of a response that is no value.
def Response.failure? {α : Type} : Response α → Option String
  | value _ => none
  | dropped thread => some ("presentation surface unavailable: " ++ thread ++ " dropped the request")
  | cancelled => some "cancelled"

-- The surface thread. Jobs carry the number of their submission.
structure Surface (α : Type) where
  name : String
  -- How many jobs were submitted.
  submitted : Nat := 0
  -- The job that holds the thread.
  held : Option Nat := none
  -- The jobs that wait for the thread.
  queue : List (Nat × Job α) := []
  -- The jobs that were started, in order.
  started : List Nat := []
  -- The replies that were sent; a job that panicked sends none but is noted.
  replies : List (Nat × Option α) := []
  events : List Event := []

namespace Surface

variable {α : Type}

-- The thread takes a job: it runs it at once, unless another one holds the thread.
def take (s : Surface α) (number : Nat) (job : Job α) : Surface α :=
  if s.held.isSome then { s with queue := s.queue ++ [(number, job)] }
  else
    let s := { s with started := s.started ++ [number] }
    match job with
    | .run f => { s with replies := s.replies ++ [(number, some (f s.name))] }
    | .panic =>
      { s with replies := s.replies ++ [(number, none)], events := s.events ++ [.surfacePanicked s.name] }
    | .hold => { s with held := some number }

-- A job that holds the thread ends, and the queue moves on.
def release (s : Surface α) (number : Nat) : Surface α :=
  if s.held = some number then
    s.queue.foldl (fun s (n, job) => s.take n job) { s with held := none, queue := [] }
  else s

-- The reply to a job, if there is one: its value, or the news that the request was dropped.
def reply? (s : Surface α) (number : Nat) : Option (Response α) :=
  (s.replies.lookup number).map fun
    | some a => .value a
    | none => .dropped s.name

-- Submits a job and waits for its reply. A cancellation ends the wait and not the job. There is no result if that wait
-- never ends.
def invoke (s : Surface α) (t : Timeline) (token : Token) (job : Job α) :
    Option (Response α × Timeline × Surface α) :=
  let number := s.submitted
  let s := { s with submitted := number + 1 }.take number job
  if t.isCancelled token then some (.cancelled, t, s.release number)
  else
    match s.reply? number with
    | some response => some (response, t, s)
    | none => (t.waitForSignal? token).map fun t => (.cancelled, t, s.release number)

-- Everything that the thread reports until its last owner has gone.
def log (s : Surface α) : List Event :=
  s.events ++ [.surfaceStopped s.name]

end Surface

end StationScript
