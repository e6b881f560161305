namespace StationScript

-- A day of the calendar that repeats every 400 years, extended to all years.
structure Date where
  year : Int
  month : Nat
  day : Nat
  deriving DecidableEq, Repr

namespace Date

def cycle : Nat :=
  146097

-- The number of 1970-01-01, when days are counted from the first of March of the year 0.
def epoch : Int :=
  719468

-- The days from the first of March to the first of the month that comes so many months later.
def monthStart (m : Nat) : Nat :=
  (153 * m + 2) / 5

-- The days before a year that begins with March, counted within the cycle of 400 years.
def yearStart (y : Nat) : Nat :=
  365 * y + y / 4 - y / 100

-- The number of a date, where 1970-01-01 is 0. Years are taken to begin with March, so that the leap day
-- comes last.
def toDays (d : Date) : Int :=
  let year := if d.month ≤ 2 then d.year - 1 else d.year
  let month := if d.month ≤ 2 then d.month + 9 else d.month - 3
  year / 400 * cycle + yearStart (year % 400).toNat + monthStart month + d.day - 1 - epoch

-- The year of the cycle in which a day of the cycle falls, and the day of that year. The last century of a
-- cycle is a day longer than the others, and so is the last year of four.
def yearDay (day : Nat) : Nat × Nat :=
  let century := min (day / 36524) 3
  let inCentury := day - 36524 * century
  let four := inCentury / 1461
  let inFour := inCentury - 1461 * four
  let year := min (inFour / 365) 3
  (100 * century + 4 * four + year, inFour - 365 * year)

-- The month in which a day of the year falls, counted from March.
def monthOf (day : Nat) : Nat :=
  (5 * day + 2) / 153

def ofDays (n : Int) : Date :=
  let shifted := n + epoch
  let (year, rest) := yearDay (shifted % cycle).toNat
  let month := monthOf rest
  {
    year := shifted / cycle * 400 + year + (if month < 10 then 0 else 1)
    month := if month < 10 then month + 3 else month - 9
    day := rest - monthStart month + 1 }

def isLeap (year : Int) : Bool :=
  year % 4 == 0 && (year % 100 != 0 || year % 400 == 0)

def daysInMonth (year : Int) (month : Nat) : Nat :=
  match month with
  | 4 | 6 | 9 | 11 => 30
  | 2 => if isLeap year then 29 else 28
  | _ => 31

def isValid (d : Date) : Bool :=
  1 ≤ d.month && d.month ≤ 12 && 1 ≤ d.day && d.day ≤ daysInMonth d.year d.month

example : toDays ⟨1970, 1, 1⟩ = 0 := by decide
example : ofDays 0 = ⟨1970, 1, 1⟩ := by decide
example : ofDays (toDays ⟨2024, 2, 29⟩) = ⟨2024, 2, 29⟩ := by decide
example : ofDays (toDays ⟨-1, 3, 1⟩) = ⟨-1, 3, 1⟩ := by decide

theorem yearStart_split (c : Nat) {q y : Nat} (hq : q < 25) (hy : y < 4) :
    yearStart (100 * c + 4 * q + y) = 36524 * c + 1461 * q + 365 * y := by
  have h4 : (100 * c + 4 * q + y) / 4 = 25 * c + q := by omega
  have h100 : (100 * c + 4 * q + y) / 100 = c := by omega
  simp only [yearStart, h4, h100]
  omega

theorem yearStart_yearDay (day : Nat) (h : day < cycle) :
    (yearDay day).1 < 400 ∧ (yearDay day).2 < 366 ∧ yearStart (yearDay day).1 + (yearDay day).2 = day := by
  simp only [cycle] at h
  simp only [yearDay]
  generalize hc : min (day / 36524) 3 = c
  generalize hq : (day - 36524 * c) / 1461 = q
  generalize hy : min ((day - 36524 * c - 1461 * q) / 365) 3 = y
  have hc3 : c ≤ 3 := by omega
  have hq25 : q < 25 := by omega
  have hy4 : y < 4 := by omega
  rw [yearStart_split c hq25 hy4]
  omega

theorem monthOf_lt {day : Nat} (h : day < 366) : monthOf day < 12 := by
  simp only [monthOf]
  omega

theorem monthStart_monthOf_le (day : Nat) : monthStart (monthOf day) ≤ day := by
  simp only [monthOf, monthStart]
  omega

theorem toDays_ofDays (n : Int) : (ofDays n).toDays = n := by
  have hc : (0 : Int) < cycle := by decide
  have hm := Int.emod_nonneg (n + epoch) (Int.ne_of_gt hc)
  have hl := Int.emod_lt_of_pos (n + epoch) hc
  have hd := Int.mul_ediv_add_emod (n + epoch) cycle
  have hy := yearStart_yearDay ((n + epoch) % cycle).toNat (by omega)
  have hs := monthStart_monthOf_le (yearDay ((n + epoch) % cycle).toNat).2
  have h12 := monthOf_lt hy.2.1
  generalize hq : (yearDay ((n + epoch) % cycle).toNat) = q at hy hs h12
  obtain ⟨year, rest⟩ := q
  simp only [ofDays, hq, toDays] at *
  by_cases h10 : monthOf rest < 10
  · have h2 : ¬ monthOf rest + 3 ≤ 2 := by omega
    have hyear : ((n + epoch) / cycle * 400 + year + 0) / 400 = (n + epoch) / cycle := by omega
    have hmod : (((n + epoch) / cycle * 400 + year + 0) % 400).toNat = year := by omega
    simp only [if_pos h10, if_neg h2, hyear, hmod, Nat.add_sub_cancel]
    rw [Int.mul_comm] at hd
    omega
  · have h2 : monthOf rest - 9 ≤ 2 := by omega
    have hyear : ((n + epoch) / cycle * 400 + year + 1 - 1) / 400 = (n + epoch) / cycle := by omega
    have hmod : (((n + epoch) / cycle * 400 + year + 1 - 1) % 400).toNat = year := by omega
    have hmon : monthOf rest - 9 + 9 = monthOf rest := by omega
    simp only [if_neg h10, if_pos h2, hyear, hmod, hmon]
    rw [Int.mul_comm] at hd
    omega

end Date

end StationScript
