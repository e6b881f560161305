import StationScript.Scope

namespace StationScript

-- The halves of a scope that someone holds. The trigger may have been given up.
structure Holding where
  token : Token
  trigger : Option Trigger
  deriving DecidableEq, Repr

-- The holdings by name. A name stands once, with what it was last given.
structure ScopeBook where
  entries : List (String × Holding) := []
  deriving DecidableEq, Repr

inductive ScopeStep
  | scope (id : String)
  -- Take a token that nothing can cancel.
  | never (id : String)
  | child (id outer : String)
  -- Copy both halves.
  | clone (id source : String)
  | cancel (id : String)
  -- Give this copy of the trigger up.
  | dropTrigger (id : String)
  deriving DecidableEq, Repr

namespace ScopeBook

def get? (b : ScopeBook) (id : String) : Option Holding :=
  b.entries.lookup id

def set (b : ScopeBook) (id : String) (h : Holding) : ScopeBook :=
  ⟨(id, h) :: b.entries.filter (·.1 != id)⟩

def token? (b : ScopeBook) (id : String) : Option Token :=
  (b.get? id).map (·.token)

def trigger? (b : ScopeBook) (id : String) : Option Trigger :=
  (b.get? id).bind (·.trigger)

-- A step on the book and the flags. There is none for a name that holds nothing, and a trigger that was
-- given up cannot be fired.
def step (b : ScopeBook) (s : Signals) : ScopeStep → Option (ScopeBook × Signals)
  | .scope id =>
    let (s, trigger, token) := s.scope
    some (b.set id ⟨token, trigger⟩, s)
  | .never id =>
    let (s, token) := s.never
    some (b.set id ⟨token, none⟩, s)
  | .child id outer => do
    let outer ← b.token? outer
    let (s, trigger, token) := s.child outer
    some (b.set id ⟨token, trigger⟩, s)
  | .clone id source => do
    let h ← b.get? source
    some (b.set id h, s)
  | .cancel id => do
    let trigger ← b.trigger? id
    some (b, s.fire trigger)
  | .dropTrigger id => do
    let h ← b.get? id
    some (b.set id { h with trigger := none }, s)

-- One line of the report on a book: a name, whether its token is cancelled, and whether its trigger was
-- fired, if it holds one.
structure Status where
  id : String
  cancelled : Bool
  fired : Option Bool
  deriving DecidableEq, Repr

-- The report on all names, in the order of their code points.
def report (b : ScopeBook) (s : Signals) : List Status :=
  (b.entries.map fun (id, h) => ⟨id, s.isCancelled h.token, h.trigger.map s.isFired⟩).mergeSort
    (·.id ≤ ·.id)

end ScopeBook

end StationScript
