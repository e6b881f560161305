namespace StationScript.Text

-- The least number that no longer fits a word of 64 bits.
def wordLimit : Nat :=
  18446744073709551616

def isDigit (c : Char) : Bool :=
  '0' ≤ c && c ≤ '9'

def digitValue (c : Char) : Nat :=
  c.toNat - '0'.toNat

def digitsValue (cs : List Char) : Nat :=
  cs.foldl (fun n c => 10 * n + digitValue c) 0

-- Reads one digit or more, if the number they spell is below the limit.
def digits? (limit : Nat) (cs : List Char) : Option Nat :=
  if !cs.isEmpty && cs.all isDigit && digitsValue cs < limit then some (digitsValue cs) else none

-- Reads a number that fits a word. One plus sign may stand in front of it, and nothing else.
def natural? (s : String) : Option Nat :=
  match s.toList with
  | '+' :: cs => digits? wordLimit cs
  | cs => digits? wordLimit cs

theorem digits?_eq_some_iff {limit n : Nat} {cs : List Char} :
    digits? limit cs = some n ↔ cs ≠ [] ∧ (∀ c ∈ cs, isDigit c) ∧ digitsValue cs = n ∧ n < limit := by
  unfold digits?
  split <;> rename_i h
  · simp only [Bool.and_eq_true, Bool.not_eq_true', List.isEmpty_eq_false_iff, List.all_eq_true,
      decide_eq_true_eq] at h
    constructor
    · intro hn
      cases hn
      exact ⟨h.1.1, h.1.2, rfl, h.2⟩
    · rintro ⟨-, -, rfl, -⟩
      rfl
  · constructor
    · nofun
    · rintro ⟨h₀, h₁, rfl, h₂⟩
      exact absurd (by simp_all [List.all_eq_true]) h

-- The value of a row of digits does not change by zeros in front.
theorem digitsValue_zero_cons (cs : List Char) : digitsValue ('0' :: cs) = digitsValue cs := by
  simp [digitsValue, digitValue]

end StationScript.Text
