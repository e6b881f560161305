import StationScript.Scope.Book

namespace StationScript

-- Whether someone still holds a trigger that raises a flag.
def ScopeBook.holdsTrigger (b : ScopeBook) (f : Flag) : Bool :=
  b.entries.any fun (_, h) => h.trigger = some ⟨f⟩

-- A step that somebody takes at an instant.
structure TimedStep where
  instant : Nat
  step : ScopeStep
  deriving DecidableEq, Repr

-- Work is watched through all flags of a token, one by one. A watcher whose flag was raised cuts the work, and one
-- whose flag nobody can raise any more leaves that to the others.
inductive Watcher
  | alert
  -- Nobody holds a trigger for the flag any more.
  | aside
  -- The flag was raised.
  | woken
  deriving DecidableEq, Repr

-- A watcher that is not settled yet looks at its flag.
def Watcher.look (b : ScopeBook) (s : Signals) (f : Flag) : Watcher → Watcher
  | alert => if f ∈ s.raised then woken else if b.holdsTrigger f then alert else aside
  | settled => settled

-- What some work yields, and how long it takes. It may take for ever.
structure Work (α : Type) where
  value : α
  duration? : Option Nat

inductive WorkResult (α : Type)
  | done (a : α)
  | cancelled
  -- There was no flag to watch.
  | panicked
  deriving DecidableEq, Repr

structure WorkEnd (α : Type) where
  result : WorkResult α
  instant : Nat
  -- Whether the work was begun at all.
  begun : Bool
  deriving DecidableEq, Repr

-- Work under way, against the watchers of a token.
structure Race (α : Type) where
  watchers : List (Flag × Watcher)
  value : α
  -- When the work is done.
  deadline? : Option Nat
  begun : Bool := false

namespace Race

variable {α : Type}

def look (r : Race α) (b : ScopeBook) (s : Signals) : Race α :=
  { r with watchers := r.watchers.map fun (f, w) => (f, w.look b s f) }

def isWoken (r : Race α) : Bool :=
  r.watchers.any (·.2 = .woken)

def isDue (r : Race α) (instant : Nat) : Bool :=
  r.deadline?.any (· ≤ instant)

-- How the race ends if nothing more happens.
def rest? (r : Race α) : Option (WorkEnd α) :=
  r.deadline?.map (⟨.done r.value, ·, true⟩)

-- Looks who has won by an instant: a cancellation counts before the end of the work.
def settle? (r : Race α) (now : Nat) : Option (WorkEnd α) :=
  if r.isWoken then some ⟨.cancelled, now, r.begun⟩
  else if r.isDue now then some ⟨.done r.value, now, true⟩
  else none

-- How the race ends while others take steps. There is no result if it never does. A step that is not possible is
-- not taken.
def run (r : Race α) (b : ScopeBook) (s : Signals) (now : Nat) : List TimedStep → Option (WorkEnd α)
  | [] => ((r.look b s).settle? now).or r.rest?
  | next :: later =>
    match (r.look b s).settle? now with
    | some e => some e
    | none =>
      if r.isDue next.instant then r.rest?
      else
        let (b', s') := (b.step s next.step).getD (b, s)
        { r.look b s with begun := true }.run b' s' next.instant later

end Race

namespace Token

variable {α : Type}

-- Sets the watchers of a token against some work.
def race (token : Token) (work : Work α) (b : ScopeBook) (s : Signals) (now : Nat) (later : List TimedStep) :
    Option (WorkEnd α) :=
  if token.flags.isEmpty then some ⟨.panicked, now, false⟩
  else
    Race.run ⟨token.flags.map (·, .alert), work.value, work.duration?.map (now + ·), false⟩ b s now later

-- Does some work unless the token is cancelled before it is done. Under a cancelled token it is not even begun.
def runUntilCancelled (token : Token) (work : Work α) (b : ScopeBook) (s : Signals) (now : Nat)
    (later : List TimedStep) : Option (WorkEnd α) :=
  if s.isCancelled token then some ⟨.cancelled, now, false⟩ else token.race work b s now later

-- Sleeps so many milliseconds, unless the token is cancelled before.
def sleep (token : Token) (milliseconds : Nat) (b : ScopeBook) (s : Signals) (now : Nat) (later : List TimedStep) :
    Option (WorkEnd Unit) :=
  token.runUntilCancelled ⟨(), some milliseconds⟩ b s now later

-- Waits for the token to be cancelled.
def cancelled (token : Token) (b : ScopeBook) (s : Signals) (now : Nat) (later : List TimedStep) :
    Option (WorkEnd Unit) :=
  token.race ⟨(), none⟩ b s now later

end Token

end StationScript
