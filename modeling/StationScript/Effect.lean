import StationScript.Event
import StationScript.Record

namespace StationScript

inductive Thread
  | main
  | surface
  deriving DecidableEq, Repr

-- What running a line is made of. A list of these is all that took place, in order: the journal, the log and what was
-- read are parts of it.
inductive Effect
  | report (thread : Thread) (event : Event)
  -- Text for the operator at the terminal.
  | prompt (text : String)
  | takeLine
  -- A device goes into another state.
  | change (c : Change)
  -- An entry is made in the journal.
  | record (action : Action)
  -- A reading becomes the output of the command.
  | capture (text : String)
  -- Time passes, unless the token is cancelled first.
  | wait (milliseconds : Nat)
  -- Time passes until the token is cancelled.
  | waitForSignal
  -- Nothing happens any more, and nothing can change that.
  | block
  | publish (p : Publication)
  deriving DecidableEq, Repr

namespace Effect

def event? (thread : Thread) : Effect → Option Event
  | report where_ e => if where_ = thread then some e else none
  | _ => none

def change? : Effect → Option Change
  | change c => some c
  | _ => none

def action? : Effect → Option Action
  | record a => some a
  | _ => none

def capture? : Effect → Option String
  | capture text => some text
  | _ => none

def publication? : Effect → Option Publication
  | publish p => some p
  | _ => none

-- The terminal lines that an effect takes.
def linesTaken : Effect → Nat
  | takeLine => 1
  | _ => 0

end Effect

abbrev Trace :=
  List Effect

namespace Trace

def events (t : Trace) (thread : Thread) : List Event :=
  t.filterMap (Effect.event? thread)

def changes (t : Trace) : List Change :=
  t.filterMap Effect.change?

-- What is entered in the journal.
def actions (t : Trace) : List Action :=
  t.filterMap Effect.action?

def captures (t : Trace) : List String :=
  t.filterMap Effect.capture?

def publications (t : Trace) : List Publication :=
  t.filterMap Effect.publication?

-- How many lines the operator typed.
def linesTaken (t : Trace) : Nat :=
  t.foldr (fun e n => e.linesTaken + n) 0

theorem events_append (t u : Trace) (thread : Thread) :
    events (t ++ u) thread = t.events thread ++ u.events thread :=
  List.filterMap_append

theorem changes_append (t u : Trace) : changes (t ++ u) = t.changes ++ u.changes :=
  List.filterMap_append

theorem actions_append (t u : Trace) : actions (t ++ u) = t.actions ++ u.actions :=
  List.filterMap_append

theorem captures_append (t u : Trace) : captures (t ++ u) = t.captures ++ u.captures :=
  List.filterMap_append

theorem publications_append (t u : Trace) : publications (t ++ u) = t.publications ++ u.publications :=
  List.filterMap_append

theorem linesTaken_append (t u : Trace) : linesTaken (t ++ u) = t.linesTaken + u.linesTaken := by
  induction t with
  | nil => simp [linesTaken]
  | cons e t ih =>
    simp only [linesTaken, List.cons_append, List.foldr_cons] at ih ⊢
    omega

end Trace

end StationScript
