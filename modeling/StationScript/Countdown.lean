namespace StationScript.Countdown

-- The shortest countdown that is accepted, in milliseconds.
def shortest : Nat :=
  1

-- The longest countdown that is accepted: twenty minutes.
def longest : Nat :=
  20 * 60 * 1000

def accepts (milliseconds : Nat) : Bool :=
  shortest ≤ milliseconds && milliseconds ≤ longest

-- One showing of the remaining time.
structure Tick where
  -- The seconds shown: the remaining time, rounded up.
  seconds : Nat
  -- How long they are shown, in milliseconds.
  length : Nat
  deriving DecidableEq, Repr

-- The ticks of a countdown: a second each, and the last one what is left.
def ticks (remaining : Nat) : List Tick :=
  if remaining = 0 then []
  else ⟨(remaining + 999) / 1000, min remaining 1000⟩ :: ticks (remaining - 1000)
termination_by remaining

def duration (ts : List Tick) : Nat :=
  ts.foldr (fun t n => t.length + n) 0

theorem accepts_iff {n : Nat} : accepts n ↔ 1 ≤ n ∧ n ≤ 1200000 := by
  rw [accepts, Bool.and_eq_true, decide_eq_true_iff, decide_eq_true_iff]
  exact Iff.rfl

theorem ticks_zero : ticks 0 = [] := by
  rw [ticks, if_pos rfl]

theorem ticks_of_pos {n : Nat} (h : 0 < n) :
    ticks n = ⟨(n + 999) / 1000, min n 1000⟩ :: ticks (n - 1000) := by
  rw [ticks, if_neg (by omega)]

theorem duration_ticks (n : Nat) : duration (ticks n) = n := by
  fun_induction ticks n with
  | case1 => rfl
  | case2 n h ih => simp only [duration, List.foldr_cons] at ih ⊢; omega

theorem length_ticks (n : Nat) : (ticks n).length = (n + 999) / 1000 := by
  fun_induction ticks n with
  | case1 => rfl
  | case2 n h ih => simp only [List.length_cons, ih]; omega

end StationScript.Countdown
