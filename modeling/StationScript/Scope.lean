namespace StationScript

-- The flag of one scope. Scopes are numbered as they are opened.
structure Flag where
  number : Nat
  deriving DecidableEq, Repr

-- The half of a scope that cancels it.
structure Trigger where
  flag : Flag
  deriving DecidableEq, Repr

-- The half of a scope that observes it: its own flag first, then those of the enclosing scopes.
structure Token where
  flags : List Flag
  deriving DecidableEq, Repr

-- All scopes opened so far, and the flags that were raised.
structure Signals where
  opened : Nat := 0
  raised : List Flag := []
  deriving DecidableEq, Repr

namespace Signals

def next (s : Signals) : Flag :=
  ⟨s.opened⟩

-- Opens a scope inside the scope that a token observes.
def child (s : Signals) (outer : Token) : Signals × Trigger × Token :=
  ({ s with opened := s.opened + 1 }, ⟨s.next⟩, ⟨s.next :: outer.flags⟩)

def scope (s : Signals) : Signals × Trigger × Token :=
  s.child ⟨[]⟩

-- A token that nothing can cancel: the trigger of its scope is given up at once.
def never (s : Signals) : Signals × Token :=
  let (s, _, token) := s.scope
  (s, token)

-- Raises a flag. Raising it again changes nothing.
def raise (s : Signals) (f : Flag) : Signals :=
  if f ∈ s.raised then s else { s with raised := f :: s.raised }

def raiseAll (s : Signals) (fs : List Flag) : Signals :=
  fs.foldl raise s

def fire (s : Signals) (t : Trigger) : Signals :=
  s.raise t.flag

-- Whether a trigger was fired, by this copy of it or another.
def isFired (s : Signals) (t : Trigger) : Bool :=
  t.flag ∈ s.raised

-- Whether the token's scope or one around it was cancelled.
def isCancelled (s : Signals) (t : Token) : Bool :=
  t.flags.any (· ∈ s.raised)

theorem mem_raise {s : Signals} {f g : Flag} : g ∈ (s.raise f).raised ↔ g = f ∨ g ∈ s.raised := by
  unfold raise
  split
  · exact ⟨.inr, fun h => h.elim (fun e => e ▸ ‹f ∈ s.raised›) id⟩
  · simp

theorem mem_raiseAll {s : Signals} {fs : List Flag} {g : Flag} :
    g ∈ (s.raiseAll fs).raised ↔ g ∈ fs ∨ g ∈ s.raised := by
  induction fs generalizing s with
  | nil => simp [raiseAll]
  | cons f fs ih =>
    have := ih (s := s.raise f)
    simp only [raiseAll, List.foldl_cons] at this ⊢
    rw [this, mem_raise, List.mem_cons, or_left_comm, or_assoc]

theorem isCancelled_iff {s : Signals} {t : Token} : s.isCancelled t ↔ ∃ f ∈ t.flags, f ∈ s.raised := by
  simp [isCancelled]

theorem isFired_iff {s : Signals} {t : Trigger} : s.isFired t ↔ t.flag ∈ s.raised := by
  simp [isFired]

-- A raised flag stays raised.
theorem isCancelled_raise {s : Signals} {t : Token} {f : Flag} (h : s.isCancelled t) :
    (s.raise f).isCancelled t := by
  obtain ⟨g, hg, hr⟩ := isCancelled_iff.1 h
  exact isCancelled_iff.2 ⟨g, hg, mem_raise.2 (.inr hr)⟩

end Signals

end StationScript
