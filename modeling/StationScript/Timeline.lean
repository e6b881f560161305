import StationScript.Scope

namespace StationScript

-- A flag that will be raised at an instant.
structure Firing where
  instant : Nat
  flag : Flag
  deriving DecidableEq, Repr

-- The present instant in milliseconds, the flags raised until now, and the firings to come. What is scheduled
-- for an instant happens after everything else that happens then.
structure Timeline where
  now : Nat := 0
  signals : Signals := {}
  schedule : List Firing := []
  deriving DecidableEq, Repr

namespace Timeline

def isCancelled (t : Timeline) (token : Token) : Bool :=
  t.signals.isCancelled token

def fire (t : Timeline) (trigger : Trigger) : Timeline :=
  { t with signals := t.signals.fire trigger }

-- Lets every firing happen that is scheduled for an instant before the limit.
def firePending (t : Timeline) (limit : Nat) : Timeline :=
  { t with
    signals := t.signals.raiseAll ((t.schedule.filter (·.instant < limit)).map (·.flag))
    schedule := t.schedule.filter fun f => !(f.instant < limit) }

-- The instant of the earliest firing to come that reaches a token.
def nextFor? (t : Timeline) (token : Token) : Option Nat :=
  ((t.schedule.filter (·.flag ∈ token.flags)).map (·.instant)).min?

-- The clock after time has passed up to an instant, which lies ahead.
def moveTo (t : Timeline) (instant : Nat) : Timeline :=
  { t.firePending instant with now := instant }

-- The clock when a wait was just cut by a firing at an instant: that firing has happened.
def cutAt (t : Timeline) (instant : Nat) : Timeline :=
  { t.firePending (instant + 1) with now := max t.now instant }

-- The firing that cuts a wait which would end at an instant.
def cutBefore? (t : Timeline) (token : Token) (deadline : Nat) : Option Nat :=
  (t.nextFor? token).filter (· < deadline)

-- Waits under a token. The answer tells whether the whole time passed; a cancelled token lets none pass.
def wait (t : Timeline) (token : Token) (milliseconds : Nat) : Bool × Timeline :=
  if t.isCancelled token then (false, t)
  else
    match t.cutBefore? token (t.now + milliseconds) with
    | some instant => (false, t.cutAt instant)
    | none => (true, t.moveTo (t.now + milliseconds))

-- Waits until the token is cancelled, which may never happen.
def waitForSignal? (t : Timeline) (token : Token) : Option Timeline :=
  if t.isCancelled token then some t
  else (t.nextFor? token).map t.cutAt

-- Schedules firings so many milliseconds from now.
def plan (t : Timeline) (firings : List (Nat × Flag)) : Timeline :=
  { t with schedule := t.schedule ++ firings.map fun (delay, flag) => ⟨t.now + delay, flag⟩ }

-- Calls off every firing that is still to come.
def clear (t : Timeline) : Timeline :=
  { t with schedule := [] }

end Timeline

end StationScript
