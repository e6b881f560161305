import Mathlib.Tactic.IntervalCases
import StationScript.Instant.Reader
import StationScript.Proofs.Numerals

namespace StationScript

namespace Date

variable {day rest : Nat} {n : Int}

-- Only a leap year has a day more than the 365 others have, and since years begin with March that is its last one.
theorem yearDay_cases (h : day < cycle) :
    (yearDay day).1 < 400 ∧
      ((yearDay day).2 < 365 ∨ (yearDay day).2 = 365 ∧ isLeap ((yearDay day).1 + 1)) := by
  simp only [cycle] at h
  simp only [yearDay, isLeap]
  generalize hc : min (day / 36524) 3 = c
  generalize hq : (day - 36524 * c) / 1461 = q
  generalize hy : min ((day - 36524 * c - 1461 * q) / 365) 3 = y
  simp only [Bool.and_eq_true, Bool.or_eq_true, beq_iff_eq, bne_iff_ne]
  omega

-- A day lies within the month in which it falls.
theorem sub_monthStart_lt {year : Int} (h : rest < 365 ∨ rest = 365 ∧ isLeap year) :
    rest - monthStart (monthOf rest) <
      daysInMonth year (if monthOf rest < 10 then monthOf rest + 3 else monthOf rest - 9) := by
  have hlow : 153 * monthOf rest ≤ 5 * rest + 2 := by simp only [monthOf]; omega
  have hhigh : 5 * rest + 2 < 153 * (monthOf rest + 1) := by simp only [monthOf]; omega
  have hmonth : monthOf rest < 12 := monthOf_lt (by omega)
  generalize monthOf rest = m at hlow hhigh hmonth
  interval_cases m <;> simp [monthStart, daysInMonth] <;> grind

-- The date of a day, from the number of the day within its cycle of 400 years.
theorem exists_ofDays (n : Int) : ∃ (cycles : Int) (year rest : Nat),
    n + epoch = cycles * cycle + (yearStart year + rest : Nat) ∧ year < 400 ∧
    (rest < 365 ∨ rest = 365 ∧ isLeap (year + 1)) ∧
    ofDays n = ⟨cycles * 400 + year + (if monthOf rest < 10 then 0 else 1),
      if monthOf rest < 10 then monthOf rest + 3 else monthOf rest - 9, rest - monthStart (monthOf rest) + 1⟩ := by
  have hpos : (0 : Int) < cycle := by decide
  have hnonneg := Int.emod_nonneg (n + epoch) (Int.ne_of_gt hpos)
  have hlt := Int.emod_lt_of_pos (n + epoch) hpos
  have hday : ((n + epoch) % cycle).toNat < cycle := by omega
  have hsplit := Int.mul_ediv_add_emod (n + epoch) cycle
  have ⟨_, _, hstart⟩ := yearStart_yearDay _ hday
  have ⟨hyear, hrest⟩ := yearDay_cases hday
  refine ⟨(n + epoch) / cycle, _, _, ?_, hyear, hrest, rfl⟩
  rw [hstart, Int.mul_comm]
  omega

theorem isLeap_add_cycles (cycles year : Int) : isLeap (cycles * 400 + year) = isLeap year := by
  have h4 : (cycles * 400 + year) % 4 = year % 4 := by omega
  have h100 : (cycles * 400 + year) % 100 = year % 100 := by omega
  have h400 : (cycles * 400 + year) % 400 = year % 400 := by omega
  simp only [isLeap, h4, h100, h400]

-- Every day falls on a date that exists.
theorem isValid_ofDays (n : Int) : (ofDays n).isValid := by
  have ⟨cycles, year, rest, _, _, hrest, heq⟩ := exists_ofDays n
  have hmonth : monthOf rest < 12 := monthOf_lt (by omega)
  have hleap : rest < 365 ∨ rest = 365 ∧ isLeap (cycles * 400 + year + if monthOf rest < 10 then 0 else 1) := by
    refine hrest.imp_right fun ⟨hlast, hleap⟩ => ⟨hlast, ?_⟩
    have hfebruary : ¬monthOf rest < 10 := by rw [hlast]; decide
    rw [if_neg hfebruary, Int.add_assoc, isLeap_add_cycles, hleap]
  have hday := sub_monthStart_lt hleap
  rw [heq]
  simp only [isValid, Bool.and_eq_true, decide_eq_true_eq]
  refine ⟨⟨⟨?_, ?_⟩, Nat.le_add_left ..⟩, Nat.succ_le_of_lt hday⟩
  all_goals split <;> omega

theorem isValid_iff {d : Date} : d.isValid ↔
    1 ≤ d.month ∧ d.month ≤ 12 ∧ 1 ≤ d.day ∧ d.day ≤ daysInMonth d.year d.month := by
  simp [isValid, and_assoc]

theorem daysInMonth_le (year : Int) (month : Nat) : daysInMonth year month ≤ 31 := by
  unfold daysInMonth
  split
  case h_5 => cases isLeap year <;> decide
  all_goals decide

-- The number of the first day of the year 10000.
def dayTenThousand : Int :=
  2932897

-- From 1970 to 9999 years have four digits.
theorem year_ofDays (h : 0 ≤ n) (hn : n < dayTenThousand) : 0 ≤ (ofDays n).year ∧ (ofDays n).year ≤ 9999 := by
  have ⟨cycles, year, rest, hsum, hyear, hrest, heq⟩ := exists_ofDays n
  rw [heq]
  simp only [epoch, cycle, yearStart, dayTenThousand] at hsum hn
  by_cases hmonth : monthOf rest < 10
  case pos =>
    simp only [if_pos hmonth]
    omega
  case neg =>
    simp only [if_neg hmonth]
    simp only [monthOf] at hmonth
    omega

end Date

namespace Instant

namespace Reader

open StationScript.Text

variable {α β : Type} {r : Reader α} {f : α → Reader β} {a : α} {c : Char} {cs rest : List Char} {most : Option Nat}
  {least greatest n width limit : Nat}

-- A reader goes on where the one before it stopped.
theorem bind_of_ok (h : r cs = .ok (a, rest)) : (r >>= f) cs = f a rest := by
  show (r cs >>= fun p => f p.1 p.2) = _
  rw [h]
  rfl

theorem skipBlank_cons (hc : isBlank c = false) (cs : List Char) : skipBlank (c :: cs) = .ok ((), c :: cs) := by
  show Except.ok ((), trimStart (c :: cs)) = _
  rw [trimStart, List.dropWhile_cons_of_neg (by simp [hc])]

theorem literal_cons (c : Char) (cs : List Char) : literal c (c :: cs) = .ok ((), cs) := by
  refine (bind_of_ok rfl).trans ?_
  rw [if_neg (by simp)]
  rfl

theorem skipBlank_padded (width n : Nat) (rest : List Char) :
    skipBlank ((padded width n).toList ++ rest) = .ok ((), (padded width n).toList ++ rest) := by
  have ⟨c, cs, hcs, hdigit⟩ := exists_padded_eq_cons width n
  rw [hcs]
  exact skipBlank_cons (isBlank_of_isDigit hdigit) _

theorem digits_append (hcs : ∀ c ∈ cs, isDigit c) (hne : cs ≠ []) (hlimit : cs.length ≤ limit)
    (hmax : digitsValue cs ≤ signedMax) (hrest : EndsDigits rest) :
    digits (some limit) (cs ++ rest) = .ok (digitsValue cs, rest) := by
  have hrun : ((cs ++ rest).takeWhile isDigit).take limit = cs := by
    rw [takeWhile_digits hcs hrest, List.take_of_length_le hlimit]
  have hinput : ¬(cs ++ rest).isEmpty := by simp [hne]
  have hdigits : ¬cs.isEmpty := by simp [hne]
  refine (bind_of_ok rfl).trans ?_
  simp only [Option.map_some, Option.getD_some, hrun, if_neg hinput, if_neg hdigits, if_neg (Nat.not_lt.2 hmax),
    List.drop_left]
  rfl

-- A number with zeros in front, if it does not need more digits than are taken.
theorem digits_padded (hwidth : 0 < width) (hlimit : width ≤ limit) (hn : n < 10 ^ width) (hmax : n ≤ signedMax)
    (hrest : EndsDigits rest) : digits (some limit) ((padded width n).toList ++ rest) = .ok (n, rest) := by
  have hlen := length_padded_of_lt hwidth hn
  have hvalue := digitsValue_padded width n
  have hne : (padded width n).toList ≠ [] := List.ne_nil_of_length_pos (Nat.lt_of_lt_of_eq hwidth hlen.symm)
  have hdigits := digits_append (fun _ => isDigit_of_mem_padded) hne (Nat.le_trans (Nat.le_of_eq hlen) hlimit)
    (Nat.le_trans (Nat.le_of_eq hvalue) hmax) hrest
  rwa [hvalue] at hdigits

theorem part_padded (hleast : least ≤ n) (hgreatest : n ≤ greatest) (hn : n < 100) (hrest : EndsDigits rest) :
    part least greatest ((padded 2 n).toList ++ rest) = .ok (n, rest) := by
  have hmax : n ≤ signedMax := by simp only [signedMax]; omega
  have hbounds : ¬(n < least ∨ greatest < n) := by omega
  refine (bind_of_ok (skipBlank_padded 2 n rest)).trans ?_
  refine (bind_of_ok (digits_padded Nat.two_pos (Nat.le_refl 2) hn hmax hrest)).trans ?_
  rw [if_neg hbounds]
  rfl

-- A year of four digits has no sign.
theorem year_padded (hn : n ≤ 9999) (hrest : EndsDigits rest) :
    year ((padded 4 n).toList ++ rest) = .ok ((n : Int), rest) := by
  have hmax : n ≤ signedMax := by simp only [signedMax]; omega
  have hbounds : ¬((n : Int) < -(yearMax : Int) - 1 ∨ (yearMax : Int) < n) := by simp only [yearMax]; omega
  have hdigits := digits_padded (by decide) (Nat.le_refl 4) (by omega : n < 10 ^ 4) hmax hrest
  refine (bind_of_ok (skipBlank_padded 4 n rest)).trans ?_
  refine (bind_of_ok rfl).trans ?_
  have ⟨c, cs, hcs, hdigit⟩ := exists_padded_eq_cons 4 n
  have hsign : c ≠ '-' ∧ c ≠ '+' := by
    constructor
    all_goals
      intro heq
      rw [heq] at hdigit
      cases hdigit
  rw [hcs, List.cons_append] at hdigits ⊢
  -- Neither of the two signs is a digit.
  simp only [List.cons.injEq, hsign.left, hsign.right, false_and, imp_self, implies_true]
  refine (bind_of_ok rfl).trans ?_
  refine (bind_of_ok hdigits).trans ?_
  simp only [Bool.false_eq_true, if_false, if_neg hbounds]
  rfl

-- A fraction is read in nanoseconds, however many digits it has.
theorem fraction_padded (hwidth : 0 < width) (hlimit : width ≤ 9) (hn : n < 10 ^ width) (hrest : EndsDigits rest) :
    fraction ('.' :: ((padded width n).toList ++ rest)) = .ok (n * 10 ^ (9 - width), rest) := by
  have hmax : n ≤ signedMax := by
    have hle : 10 ^ width ≤ 10 ^ 9 := Nat.pow_le_pow_right (by decide) hlimit
    simp only [signedMax]
    omega
  have hcount : min 9 (((padded width n).toList ++ rest).takeWhile isDigit).length = width := by
    rw [takeWhile_digits (fun _ => isDigit_of_mem_padded) hrest, length_padded_of_lt hwidth hn]
    exact Nat.min_eq_right hlimit
  have hdrop : rest.dropWhile isDigit = rest := dropWhile_digits (List.forall_mem_nil _) hrest
  refine (bind_of_ok rfl).trans ?_
  refine (bind_of_ok rfl).trans ?_
  refine (bind_of_ok (digits_padded hwidth hlimit hn hmax hrest)).trans ?_
  rw [hcount]
  refine (bind_of_ok rfl).trans ?_
  simp only [hdrop]
  rfl

theorem fraction_of_ne (hc : c ≠ '.') (cs : List Char) : fraction (c :: cs) = .ok (0, c :: cs) := by
  refine (bind_of_ok rfl).trans ?_
  simp only [List.cons.injEq, hc, false_and, imp_self, implies_true]
  rfl

-- The text of a fraction has no digits, or as many as it needs to be exact.
theorem fractionText_cases (hn : n < perSecond) :
    fractionText n = "" ∧ n = 0 ∨
      ∃ width m, fractionText n = "." ++ padded width m ∧ 0 < width ∧ width ≤ 9 ∧ m < 10 ^ width ∧
        m * 10 ^ (9 - width) = n := by
  have hmicro : perMicrosecond = 1000 := rfl
  have hmilli : perMillisecond = 1000000 := rfl
  have hsecond : perSecond = 1000000000 := rfl
  unfold fractionText
  by_cases hzero : n = 0
  case pos => exact .inl ⟨if_pos hzero, hzero⟩
  case neg =>
    right
    rw [if_neg hzero]
    by_cases hmillis : n % perMillisecond = 0
    case pos =>
      rw [if_pos hmillis]
      rw [hmilli] at hmillis ⊢
      exact ⟨3, n / 1000000, rfl, by decide, by decide, by omega, by omega⟩
    case neg =>
      rw [if_neg hmillis]
      by_cases hmicros : n % perMicrosecond = 0
      case pos =>
        rw [if_pos hmicros]
        rw [hmicro] at hmicros ⊢
        exact ⟨6, n / 1000, rfl, by decide, by decide, by omega, by omega⟩
      case neg =>
        rw [if_neg hmicros]
        exact ⟨9, n, rfl, by decide, by decide, by omega, by omega⟩

theorem fraction_fractionText (hn : n < perSecond) (cs : List Char) :
    fraction ((fractionText n).toList ++ 'Z' :: cs) = .ok (n, 'Z' :: cs) := by
  rcases fractionText_cases hn with ⟨htext, hzero⟩ | ⟨width, m, htext, hwidth, hlimit, hm, heq⟩
  · rw [htext, hzero]
    exact fraction_of_ne (by decide) cs
  · have hfraction := fraction_padded hwidth hlimit hm (endsDigits_cons rfl cs : EndsDigits ('Z' :: cs))
    rw [heq] at hfraction
    rw [htext, String.toList_append]
    exact hfraction

theorem date_dateText {t : Instant} {y : Nat} (hyear : t.date.year = y) (hlimit : y ≤ 9999) (cs : List Char) :
    Reader.date (t.dateText.toList ++ 'T' :: cs) = .ok (t.date, 'T' :: cs) := by
  have hvalid : t.date.isValid := Date.isValid_ofDays _
  have ⟨hmonth, hmonth', hday, hday'⟩ := Date.isValid_iff.1 hvalid
  have hdays := Date.daysInMonth_le t.date.year t.date.month
  have htext : t.dateText.toList ++ 'T' :: cs = (padded 4 y).toList ++ ('-' :: ((padded 2 t.date.month).toList ++
      ('-' :: ((padded 2 t.date.day).toList ++ 'T' :: cs)))) := by
    have hyearText : yearText t.date.year = padded 4 y := by
      rw [hyear, yearText, if_pos (by omega)]
      rfl
    simp [dateText, hyearText]
  rw [htext]
  refine (bind_of_ok (year_padded hlimit (endsDigits_cons rfl _))).trans ?_
  refine (bind_of_ok (skipBlank_cons rfl _)).trans ?_
  refine (bind_of_ok (literal_cons _ _)).trans ?_
  refine (bind_of_ok (part_padded hmonth hmonth' (by omega) (endsDigits_cons rfl _))).trans ?_
  refine (bind_of_ok (skipBlank_cons rfl _)).trans ?_
  refine (bind_of_ok (literal_cons _ _)).trans ?_
  refine (bind_of_ok (part_padded hday (by omega) (by omega) (endsDigits_cons rfl _))).trans ?_
  rw [← hyear]
  rfl

theorem sinceMidnight_lt (t : Instant) : t.sinceMidnight < perSecond * 86400 := by
  have hpos : (0 : Int) < perDay := by decide
  have hlt := Int.emod_lt_of_pos t.nanoseconds hpos
  have hnonneg := Int.emod_nonneg t.nanoseconds (Int.ne_of_gt hpos)
  have hday : perDay = perSecond * 86400 := Nat.mul_comm ..
  rw [sinceMidnight, ← hday]
  omega

-- The time of a day is read to the nanosecond.
theorem timeOfDay_clock (t : Instant) (cs : List Char) :
    timeOfDay (t.clock.toList ++ ((fractionText t.fraction).toList ++ 'Z' :: cs)) =
      .ok (t.sinceMidnight, 'Z' :: cs) := by
  have hseconds : t.sinceMidnight / perSecond < 86400 := Nat.div_lt_of_lt_mul (sinceMidnight_lt t)
  have hfraction : t.fraction < perSecond := Nat.mod_lt _ (by decide)
  have hends : EndsDigits ((fractionText t.fraction).toList ++ 'Z' :: cs) := by
    rcases fractionText_cases hfraction with ⟨htext, _⟩ | ⟨_, _, htext, _⟩
    · rw [htext]; exact endsDigits_cons rfl _
    · rw [htext, String.toList_append]; exact endsDigits_cons rfl _
  have htext : t.clock.toList = (padded 2 (t.sinceMidnight / perSecond / 3600)).toList ++
      (':' :: ((padded 2 (t.sinceMidnight / perSecond / 60 % 60)).toList ++
        (':' :: (padded 2 (t.sinceMidnight / perSecond % 60)).toList))) := by
    simp [clock]
  rw [htext, List.append_assoc, List.cons_append, List.append_assoc, List.cons_append]
  refine (bind_of_ok (part_padded (Nat.zero_le _) (by omega) (by omega) (endsDigits_cons rfl _))).trans ?_
  refine (bind_of_ok (skipBlank_cons rfl _)).trans ?_
  refine (bind_of_ok (literal_cons _ _)).trans ?_
  refine (bind_of_ok (part_padded (Nat.zero_le _) (by omega) (by omega) (endsDigits_cons rfl _))).trans ?_
  refine (bind_of_ok (skipBlank_cons rfl _)).trans ?_
  refine (bind_of_ok (literal_cons _ _)).trans ?_
  refine (bind_of_ok (part_padded (Nat.zero_le _) (by omega) (by omega) hends)).trans ?_
  refine (bind_of_ok (fraction_fractionText hfraction cs)).trans ?_
  have hsum : (3600 * (t.sinceMidnight / perSecond / 3600) + 60 * (t.sinceMidnight / perSecond / 60 % 60) +
      t.sinceMidnight / perSecond % 60) * perSecond + t.fraction = t.sinceMidnight := by
    have hsplit := Nat.div_add_mod t.sinceMidnight perSecond
    rw [Nat.mul_comm] at hsplit
    have hclock : 3600 * (t.sinceMidnight / perSecond / 3600) + 60 * (t.sinceMidnight / perSecond / 60 % 60) +
      t.sinceMidnight / perSecond % 60 = t.sinceMidnight / perSecond := by omega
    rw [hclock]
    exact hsplit
  rw [hsum]
  rfl

end Reader

-- An instant of a year that has four digits is read back from its text.
theorem ofText_text {t : Instant} (h : 0 ≤ t.date.year ∧ t.date.year ≤ 9999) : ofText t.text = .ok t := by
  have ⟨y, hyear⟩ := Int.eq_ofNat_of_zero_le h.left
  have hlimit : y ≤ 9999 := by omega
  have htext : t.text.toList = t.dateText.toList ++ 'T' :: (t.clock.toList ++
      ((fractionText t.fraction).toList ++ ['Z'])) := by
    simp [text]
  have hvalid : t.date.isValid := Date.isValid_ofDays _
  have hcalendar : ¬(t.date.year < calendarYears.1 ∨ calendarYears.2 < t.date.year) := by
    simp only [calendarYears]
    omega
  have hdays : t.date.toDays = t.nanoseconds / perDay := Date.toDays_ofDays _
  have hinstant : (⟨t.date.toDays * perDay + t.sinceMidnight - 0 * perSecond⟩ : Instant) = t := by
    have hsplit := Int.mul_ediv_add_emod t.nanoseconds perDay
    have hnonneg : 0 ≤ t.nanoseconds % perDay := Int.emod_nonneg _ (by decide)
    rw [Int.mul_comm] at hsplit
    have htoNat : (t.sinceMidnight : Int) = t.nanoseconds % perDay := Int.toNat_of_nonneg hnonneg
    rw [hdays, htoNat, hsplit, Int.zero_mul, Int.sub_zero]
  have hread : (do
      let date ← Reader.date
      Reader.separator
      let time ← Reader.timeOfDay
      Reader.skipBlank
      let zone ← Reader.zone
      return (date, time, zone) : Reader (Date × Nat × Int)).run t.text.toList =
        .ok ((t.date, t.sinceMidnight, 0), []) := by
    rw [htext]
    refine (Reader.bind_of_ok (Reader.date_dateText hyear hlimit _)).trans ?_
    refine (Reader.bind_of_ok rfl).trans ?_
    refine (Reader.bind_of_ok (Reader.timeOfDay_clock t [])).trans ?_
    rfl
  unfold ofText
  rw [hread]
  have hzone : ¬86400 ≤ (0 : Int).natAbs := by decide
  simp only [bind, Except.bind, Text.trimStart, List.dropWhile_nil, List.isEmpty_nil, Bool.not_true,
    Bool.false_eq_true, if_false, hvalid, false_or, if_neg hcalendar, if_neg hzone, hinstant]
  rfl

end Instant

end StationScript
