import Mathlib.Algebra.Order.Field.Basic
import StationScript.Double.Shortest
import StationScript.Proofs.Lists
import StationScript.Proofs.Nearest
import StationScript.Proofs.Numerals

namespace StationScript.Double

section

variable {m n : Nat} {e k p : Int} {d : Decimal}

theorem ten_pos (k : Int) : 0 < ten k :=
  Nat.pow_pos (by decide)

theorem cast_ten (k : Int) : (ten k : ℚ) = 10 ^ k * ten (-k) := by
  have hcast (k : Int) (hk : 0 ≤ k) : (ten k : ℚ) = 10 ^ k := by
    calc (ten k : ℚ) = 10 ^ k.toNat := by simp [ten]
      _ = 10 ^ (k.toNat : Int) := (zpow_natCast ..).symm
      _ = 10 ^ k := by rw [Int.toNat_of_nonneg hk]
  rcases le_total 0 k with hk | hk
  case inl =>
    have hone : ten (-k) = 1 := by simp [ten, Int.toNat_eq_zero.2 (Int.neg_nonpos_of_nonneg hk)]
    rw [hcast k hk, hone, Nat.cast_one, mul_one]
  case inr =>
    have hone : ten k = 1 := by simp [ten, Int.toNat_eq_zero.2 hk]
    rw [hcast (-k) (Int.neg_nonneg_of_nonpos hk), hone, ← zpow_add₀ (by norm_num), add_neg_cancel, zpow_zero,
      Nat.cast_one]

-- The number that a decimal stands for.
def Decimal.value (d : Decimal) : ℚ :=
  d.digits * 10 ^ d.power

theorem cast_measured (d : Decimal) (e : Int) :
    ((d.digits * ten d.power * two (2 - e) : Nat) : ℚ) =
      d.value * 2 ^ (2 - e) * (ten (-d.power) * two (e - 2) : Nat) := by
  have hneg : -(2 - e) = e - 2 := neg_sub 2 e
  rw [Nat.cast_mul, Nat.cast_mul, cast_ten, cast_two (2 - e), hneg, Decimal.value]
  push_cast
  ring

-- A decimal that rounds to a double is off by half a step at most.
theorem abs_value_sub_le (hm : 0 < m) (h : roundsTo m e d) : |d.value - m * 2 ^ e| ≤ 2 ^ e / 2 := by
  have hunit : (0 : ℚ) < (ten (-d.power) * two (e - 2) : Nat) := by
    exact_mod_cast Nat.mul_pos (ten_pos _) (two_pos _)
  have hbounds : (4 * m - 2) * (ten (-d.power) * two (e - 2)) ≤ d.digits * ten d.power * two (2 - e) ∧
      d.digits * ten d.power * two (2 - e) ≤ (4 * m + 2) * (ten (-d.power) * two (e - 2)) := by
    have hlow : (4 * m - 2) * (ten (-d.power) * two (e - 2)) ≤
        (4 * m - if m == hiddenBit && e != -1074 then 1 else 2) * (ten (-d.power) * two (e - 2)) :=
      Nat.mul_le_mul_right _ (by split <;> omega)
    simp only [roundsTo] at h
    split at h
    all_goals
      have ⟨hbelow, habove⟩ := Bool.and_eq_true_iff.1 h
      have hbelow := of_decide_eq_true hbelow
      have habove := of_decide_eq_true habove
      omega
  have hbelow : ((4 * m - 2 : Nat) : ℚ) ≤ d.value * 2 ^ (2 - e) := by
    have hcast := (Nat.cast_le (α := ℚ)).2 hbounds.left
    rw [cast_measured, Nat.cast_mul (4 * m - 2)] at hcast
    exact le_of_mul_le_mul_right hcast hunit
  have habove : d.value * 2 ^ (2 - e) ≤ ((4 * m + 2 : Nat) : ℚ) := by
    have hcast := (Nat.cast_le (α := ℚ)).2 hbounds.right
    rw [cast_measured, Nat.cast_mul (4 * m + 2)] at hcast
    exact le_of_mul_le_mul_right hcast hunit
  have hstep : (0 : ℚ) < 2 ^ e := zpow_pos (by norm_num) _
  have hquarters : d.value * 2 ^ (2 - e) = 4 * d.value / 2 ^ e := by
    rw [zpow_sub₀ (by norm_num)]
    ring
  rw [hquarters] at hbelow habove
  rw [Nat.cast_sub (by omega)] at hbelow
  rw [le_div_iff₀ hstep] at hbelow
  rw [div_le_iff₀ hstep] at habove
  push_cast at hbelow habove
  rw [abs_le]
  constructor <;> linarith

-- The double itself, as a decimal, rounds to it.
theorem roundsTo_of_value_eq (hm : 0 < m) (h : d.value = m * 2 ^ e) : roundsTo m e d := by
  have hunit := Nat.mul_pos (ten_pos (-d.power)) (two_pos (e - 2))
  have hvalue : d.digits * ten d.power * two (2 - e) = 4 * m * (ten (-d.power) * two (e - 2)) := by
    have hquarters : d.value * 2 ^ (2 - e) = (4 * m : Nat) := by
      rw [h, mul_assoc, ← zpow_add₀ (by norm_num), add_sub_cancel]
      push_cast
      ring
    have hcast := cast_measured d e
    rw [hquarters, ← Nat.cast_mul] at hcast
    exact_mod_cast hcast
  have hlow : (4 * m - if m == hiddenBit && e != -1074 then 1 else 2) * (ten (-d.power) * two (e - 2)) <
      4 * m * (ten (-d.power) * two (e - 2)) :=
    Nat.mul_lt_mul_of_pos_right (by split <;> omega) hunit
  have hhigh : 4 * m * (ten (-d.power) * two (e - 2)) < (4 * m + 2) * (ten (-d.power) * two (e - 2)) :=
    Nat.mul_lt_mul_of_pos_right (by omega) hunit
  simp only [roundsTo, hvalue]
  split
  case isTrue  => exact Bool.and_eq_true_iff.2 ⟨decide_eq_true hlow.le, decide_eq_true hhigh.le⟩
  case isFalse => exact Bool.and_eq_true_iff.2 ⟨decide_eq_true hlow, decide_eq_true hhigh⟩

-- Digits by units are compared as the numbers are.
theorem ten_le_iff {num den : Nat} (hden : 0 < den) (k : Int) :
    den * ten k ≤ num * ten (-k) ↔ (10 : ℚ) ^ k ≤ num / den := by
  have hunit : (0 : ℚ) < ten (-k) := by exact_mod_cast ten_pos (-k)
  have hpos : (0 : ℚ) < den := by exact_mod_cast hden
  rw [← Nat.cast_le (α := ℚ), Nat.cast_mul, Nat.cast_mul, cast_ten k, ← mul_assoc, mul_le_mul_iff_of_pos_right hunit,
    le_div_iff₀ hpos, mul_comm]

-- The search for the leading power goes down to a power that is small enough, and not further.
theorem decade_spec {num den fuel : Nat} {low start : Int} (hden : 0 < den) (hlow : (10 : ℚ) ^ low ≤ num / den)
    (hstart : low ≤ start) (hfuel : start - low ≤ fuel) :
    low ≤ decade num den fuel start ∧ (10 : ℚ) ^ decade num den fuel start ≤ num / den := by
  induction fuel generalizing start
  case zero =>
    obtain rfl : start = low := by omega
    exact ⟨le_rfl, hlow⟩
  case succ fuel ih =>
    rw [decade]
    split
    case isTrue hle => exact ⟨hstart, (ten_le_iff hden start).1 hle⟩
    case isFalse hlt =>
      have hne : start ≠ low := by
        rintro rfl
        exact hlt ((ten_le_iff hden start).2 hlow)
      exact ih (by omega) (by omega)

theorem onGrid_spec {top : Int} (h : onGrid m e top n = some d) : roundsTo m e d ∧ d.power = top - n + 1 := by
  simp only [onGrid] at h
  split at h
  case h_1 hbelow habove =>
    obtain rfl := Option.some.inj h
    split
    · exact ⟨habove, rfl⟩
    · exact ⟨hbelow, rfl⟩
  case h_2 hbelow _ =>
    obtain rfl := Option.some.inj h
    exact ⟨hbelow, rfl⟩
  case h_3 _ habove =>
    obtain rfl := Option.some.inj h
    exact ⟨habove, rfl⟩
  case h_4 => cases h

-- A grid that the double lies on has a decimal for it.
theorem onGrid_ne_none {top : Int} {digits : Nat} (hm : 0 < m)
    (h : (⟨digits, top - n + 1⟩ : Decimal).value = m * 2 ^ e) : onGrid m e top n ≠ none := by
  let power := top - n + 1
  have hunit : 0 < two (-e) * ten power := Nat.mul_pos (two_pos _) (ten_pos _)
  have hexact : m * two e * ten (-power) = digits * (two (-e) * ten power) := by
    have hcast : ((m * two e * ten (-power) : Nat) : ℚ) = (digits * (two (-e) * ten power) : Nat) := by
      push_cast
      rw [cast_two e, cast_ten power, ← mul_assoc, ← h, Decimal.value]
      ring
    exact_mod_cast hcast
  have hfloor : m * two e * ten (-power) / (two (-e) * ten power) = digits := by
    rw [hexact, Nat.mul_div_cancel _ hunit]
  have hrounds : roundsTo m e ⟨m * two e * ten (-power) / (two (-e) * ten power), power⟩ = true := by
    rw [hfloor]
    exact roundsTo_of_value_eq hm h
  simp only [onGrid, quotient]
  rw [hrounds]
  split <;> simp_all

theorem strip_spec (fuel : Nat) (d : Decimal) : (d.strip fuel).value = d.value ∧ d.power ≤ (d.strip fuel).power := by
  induction fuel generalizing d
  case zero => exact ⟨rfl, le_rfl⟩
  case succ fuel ih =>
    rw [Decimal.strip]
    split
    case isTrue h =>
      simp only [Bool.and_eq_true, bne_iff_ne, beq_iff_eq] at h
      have ⟨hvalue, hpower⟩ := ih ⟨d.digits / 10, d.power + 1⟩
      refine ⟨hvalue.trans ?_, (Int.le_add_one le_rfl).trans hpower⟩
      have hdigits : d.digits = d.digits / 10 * 10 := by omega
      rw [Decimal.value, Decimal.value, zpow_add_one₀ (by norm_num)]
      nth_rewrite 2 [hdigits]
      push_cast
      ring
    case isFalse => exact ⟨rfl, le_rfl⟩

end

section

variable {x : Double} {tenths : Nat}

-- Below this limit the steps between doubles are too small to reach another tenth.
def tenthsLimit : ℚ :=
  2 ^ (48 : Int)

theorem exponent_le (hlimit : x.size < tenthsLimit) : x.exponent ≤ -5 := by
  by_cases hleast : x.magnitude / hiddenBit ≤ 1
  case pos =>
    have hexponent : x.exponent = -1074 := by
      rw [exponent, max_eq_right hleast]
      rfl
    omega
  case neg =>
    have hhidden : hiddenBit ≤ x.significand := by
      rw [significand, if_neg (by omega)]
      exact Nat.le_add_right _ _
    have hpow : (2 : ℚ) ^ (52 + x.exponent) < 2 ^ (48 : Int) := by
      calc (2 : ℚ) ^ (52 + x.exponent) = hiddenBit * 2 ^ x.exponent := by
            rw [zpow_add₀ (by norm_num), cast_hiddenBit]
        _ ≤ x.size := by
          rw [size]
          gcongr
        _ < 2 ^ (48 : Int) := hlimit
    have hlt := (zpow_lt_zpow_iff_right₀ (by norm_num : (1 : ℚ) < 2)).1 hpow
    omega

-- Of the decimals for whole tenths, none is off.
theorem value_eq_of_roundsTo {d : Decimal} (hx : x.size = tenths / 10) (hlimit : x.size < tenthsLimit)
    (hm : x.significand ≠ 0) (hd : -1 ≤ d.power) (h : roundsTo x.significand x.exponent d) : d.value = x.size := by
  obtain ⟨j, hj⟩ := Int.eq_ofNat_of_zero_le (show 0 ≤ d.power + 1 by omega)
  have hvalue : d.value = (d.digits * 10 ^ j : Nat) / 10 := by
    have hpower : d.power = j - 1 := by omega
    rw [Decimal.value, hpower, zpow_sub_one₀ (by norm_num), zpow_natCast]
    push_cast
    ring
  have hclose : |d.value - x.size| ≤ 1 / 64 := by
    calc |d.value - x.size| ≤ 2 ^ x.exponent / 2 := abs_value_sub_le (Nat.pos_of_ne_zero hm) h
      _ ≤ 2 ^ (-5 : Int) / 2 := by
        gcongr
        · norm_num
        · exact exponent_le hlimit
      _ = 1 / 64 := by norm_num
  -- Two whole numbers of tenths that are not equal are a tenth apart.
  have hsame : d.digits * 10 ^ j = tenths := by
    by_contra hne
    have hapart : (1 : ℚ) ≤ |((d.digits * 10 ^ j : Nat) : ℚ) - tenths| := by
      have hint : (1 : Int) ≤ |((d.digits * 10 ^ j : Nat) : Int) - tenths| := Int.one_le_abs (by omega)
      exact_mod_cast hint
    rw [hvalue, hx, ← sub_div, abs_div, abs_of_pos (by norm_num : (0 : ℚ) < 10)] at hclose
    linarith
  rw [hvalue, hsame, hx]

theorem tenth_le (hx : x.size = tenths / 10) (hm : x.significand ≠ 0) : (10 : ℚ) ^ (-1 : Int) ≤ x.size := by
  have hpos : 0 < x.size := mul_pos (by exact_mod_cast Nat.pos_of_ne_zero hm) (zpow_pos (by norm_num) _)
  have htenths : 1 ≤ tenths := by
    refine Nat.one_le_iff_ne_zero.2 fun hzero => ?_
    rw [hx, hzero, Nat.cast_zero, zero_div] at hpos
    exact lt_irrefl _ hpos
  have hcast : (1 : ℚ) ≤ tenths := by exact_mod_cast htenths
  rw [hx, zpow_neg_one]
  linarith

-- The shortest decimal for whole tenths is exact, and has one place at most behind its point.
theorem shortest_spec (hx : x.size = tenths / 10) (hlimit : x.size < tenthsLimit) :
    x.shortest.value = x.size ∧ -1 ≤ x.shortest.power := by
  by_cases hm : x.significand = 0
  case pos =>
    have hshortest : x.shortest = ⟨0, 0⟩ := by rw [shortest, if_pos hm]
    rw [hshortest]
    exact ⟨by simp [Decimal.value, size, hm], by decide⟩
  case neg =>
    let top := decade (x.significand * two x.exponent) (two (-x.exponent)) 700 310
    have hquotient : ((x.significand * two x.exponent : Nat) / two (-x.exponent) : ℚ) = x.size :=
      quotient_div x.significand x.exponent
    obtain ⟨htenth, hleading⟩ : -1 ≤ top ∧ (10 : ℚ) ^ top ≤ x.size := by
      rw [← hquotient]
      exact decade_spec (two_pos _) (hquotient ▸ tenth_le hx hm) (by decide) (by decide)
    have htop : top < 15 := by
      have hpow : (10 : ℚ) ^ top < 10 ^ (15 : Int) := by
        calc (10 : ℚ) ^ top ≤ x.size := hleading
          _ < tenthsLimit := hlimit
          _ < 10 ^ (15 : Int) := by norm_num [tenthsLimit]
      exact (zpow_lt_zpow_iff_right₀ (by norm_num)).1 hpow
    -- The grid of tenths has a decimal for the double, and the search gets there if it finds none before.
    have hgrid : onGrid x.significand x.exponent top ((top + 1).toNat + 1) ≠ none := by
      have hpower : top - ((top + 1).toNat + 1 : Nat) + 1 = -1 := by omega
      have hexact : (⟨tenths, top - ((top + 1).toNat + 1 : Nat) + 1⟩ : Decimal).value = x.size := by
        rw [Decimal.value, hpower, zpow_neg_one, ← div_eq_mul_inv]
        exact hx.symm
      exact onGrid_ne_none (Nat.pos_of_ne_zero hm) hexact
    obtain ⟨i, hi, d, hd, hfound⟩ :=
      exists_findSome?_range (f := fun n => onGrid x.significand x.exponent top (n + 1)) (k := 17) (by omega) hgrid
    obtain ⟨hrounds, hpower⟩ := onGrid_spec hd
    have hlast : -1 ≤ d.power := by omega
    have hshortest : x.shortest = d.strip 400 := by
      rw [shortest, if_neg hm]
      simp only [quotient]
      rw [hfound]
    obtain ⟨hvalue, hstrip⟩ := strip_spec 400 d
    rw [hshortest, hvalue]
    exact ⟨value_eq_of_roundsTo hx hlimit hm hlast hrounds, hlast.trans hstrip⟩

end

section

open Text

variable {d : Decimal} {tenths : Nat}

-- Digits with one place behind their point, which are worth so many tenths. Zero leads only by itself.
structure SpellTenths (whole : List Char) (place : Char) (tenths : Nat) : Prop where
  wholeDigits : ∀ c ∈ whole, isDigit c
  placeDigit  : isDigit place
  leading     : whole = ['0'] ∨ whole ≠ [] ∧ whole.head? ≠ some '0'
  value       : digitsValue (whole ++ [place]) = tenths

theorem SpellTenths.whole_ne_nil {whole : List Char} {place : Char} {tenths : Nat}
    (h : SpellTenths whole place tenths) : whole ≠ [] := by
  rcases h.leading with rfl | ⟨hne, _⟩
  · exact List.cons_ne_nil _ _
  · exact hne

-- A number of ones with as many zeros as its power says.
theorem spellTenths_ones {n j : Nat} (hn : n ≠ 0) :
    SpellTenths (Nat.toDigits 10 n ++ List.replicate j '0') '0' (n * 10 ^ j * 10) where
  wholeDigits c hc := by
    cases List.mem_append.1 hc
    case inl h => exact isDigit_of_mem_toDigits h
    case inr h => exact (List.mem_replicate.1 h).right ▸ rfl
  placeDigit := rfl
  leading := by
    have hne := Nat.toDigits_ne_nil (n := n) (b := 10)
    refine .inr ⟨List.append_ne_nil_of_left_ne_nil hne _, ?_⟩
    rw [List.head?_append_of_ne_nil _ hne]
    exact head?_toDigits hn
  value := by
    have hzeros : digitsValue (List.replicate j '0') = 0 := by
      rw [digitsValue_eq_ofDigitChars, Nat.ofDigitChars_replicate_zero, Nat.mul_zero]
    have hzero : digitsValue ['0'] = 0 := rfl
    rw [digitsValue_append, digitsValue_append, hzeros, hzero, digitsValue_toDigits, List.length_replicate]
    simp only [List.length_singleton]
    ring

-- A number of tenths that is at least one.
theorem spellTenths_split {n : Nat} {whole : List Char} {place : Char} (hn : n ≠ 0) (hwhole : whole ≠ [])
    (h : Nat.toDigits 10 n = whole ++ [place]) : SpellTenths whole place n where
  wholeDigits c hc := isDigit_of_mem_toDigits (h ▸ List.mem_append_left _ hc)
  placeDigit := isDigit_of_mem_toDigits (h ▸ List.mem_append_right _ (List.mem_singleton_self _))
  leading := by
    refine .inr ⟨hwhole, ?_⟩
    rw [← List.head?_append_of_ne_nil _ hwhole, ← h]
    exact head?_toDigits hn
  value := by rw [← h, digitsValue_toDigits]

-- A number of tenths below one.
theorem spellTenths_digit {n : Nat} {place : Char} (h : Nat.toDigits 10 n = [place]) : SpellTenths ['0'] place n where
  wholeDigits c hc := List.mem_singleton.1 hc ▸ rfl
  placeDigit := isDigit_of_mem_toDigits (h ▸ List.mem_singleton_self _)
  leading := .inl rfl
  value := by
    rw [List.singleton_append, digitsValue_zero_cons, ← h, digitsValue_toDigits]

-- The notation that a decimal gets whose point lies within the range without an exponent.
theorem magnitudeText_toList {j : Nat} (hn : d.digits ≠ 0) (hpower : d.power = j)
    (hrange : (Nat.toDigits 10 d.digits).length + j ≤ 16) :
    (compact.magnitudeText d).toList = Nat.toDigits 10 d.digits ++ List.replicate j '0' ++ ['.', '0'] := by
  have hlength := List.length_pos_of_ne_nil (Nat.toDigits_ne_nil (n := d.digits) (b := 10))
  simp only [Style.magnitudeText, compact, repr_toList, hpower]
  rw [if_neg hn, if_pos (by simp; omega), if_neg (by omega), if_pos (by omega)]
  simp

theorem magnitudeText_toList_tenths (hn : d.digits ≠ 0) (hpower : d.power = -1)
    (hrange : (Nat.toDigits 10 d.digits).length ≤ 16) :
    ∃ whole place, (compact.magnitudeText d).toList = whole ++ ['.', place] ∧ SpellTenths whole place d.digits := by
  have hlength := List.length_pos_of_ne_nil (Nat.toDigits_ne_nil (n := d.digits) (b := 10))
  obtain ⟨whole, place, hdigits⟩ :=
    (List.eq_nil_or_concat (Nat.toDigits 10 d.digits)).resolve_left Nat.toDigits_ne_nil
  rw [List.concat_eq_append] at hdigits
  simp only [Style.magnitudeText, compact, repr_toList, hpower]
  rw [if_neg hn, hdigits]
  rw [hdigits] at hlength hrange
  by_cases hwhole : whole = []
  case pos =>
    rw [hwhole, List.nil_append] at hdigits ⊢
    exact ⟨['0'], place, by simp, spellTenths_digit hdigits⟩
  case neg =>
    have hpos := List.length_pos_of_ne_nil hwhole
    refine ⟨whole, place, ?_, spellTenths_split hn hwhole hdigits⟩
    simp only [List.length_append, List.length_singleton] at hrange ⊢
    rw [if_pos (by simp; omega), if_neg (by omega), if_neg (by omega)]
    simp

-- Whole tenths are written without an exponent.
theorem exists_magnitudeText (hd : d.value = tenths / 10) (hlimit : d.value < tenthsLimit) (hpower : -1 ≤ d.power) :
    ∃ whole place, (compact.magnitudeText d).toList = whole ++ ['.', place] ∧ SpellTenths whole place tenths := by
  obtain ⟨j, hj⟩ := Int.eq_ofNat_of_zero_le (show 0 ≤ d.power + 1 by omega)
  have hscaled : d.digits * 10 ^ j = tenths := by
    have hvalue : d.value = (d.digits * 10 ^ j : Nat) / 10 := by
      have hpower : d.power = j - 1 := by omega
      rw [Decimal.value, hpower, zpow_sub_one₀ (by norm_num), zpow_natCast]
      push_cast
      ring
    rw [hvalue] at hd
    have hcast : ((d.digits * 10 ^ j : Nat) : ℚ) = tenths := by linarith
    exact_mod_cast hcast
  have htenths : tenths < 10 ^ 16 := by
    have hcast : (tenths : ℚ) < 10 ^ 16 := by
      rw [hd, div_lt_iff₀ (by norm_num)] at hlimit
      exact hlimit.trans (by norm_num [tenthsLimit])
    exact_mod_cast hcast
  by_cases hn : d.digits = 0
  case pos =>
    have htext : (compact.magnitudeText d).toList = ['0'] ++ ['.', '0'] := by simp [Style.magnitudeText, hn]
    have hzero : tenths = 0 := by rw [← hscaled, hn, Nat.zero_mul]
    exact ⟨['0'], '0', htext, hzero ▸ spellTenths_digit rfl⟩
  case neg =>
    have hpos := Nat.pos_of_ne_zero hn
    cases j
    case zero =>
      rw [Nat.pow_zero, Nat.mul_one] at hscaled
      have hrange := (Nat.length_toDigits_le_iff (b := 10) (by decide) (by decide)).2 (hscaled ▸ htenths)
      exact hscaled ▸ magnitudeText_toList_tenths hn (by omega) hrange
    case succ j =>
      have hdigits : d.digits < 10 ^ (16 - (j + 1)) ∧ j + 1 < 16 := by
        have hone : 10 ^ (j + 1) ≤ d.digits * 10 ^ (j + 1) := Nat.le_mul_of_pos_left _ hpos
        have hj : j + 1 < 16 := (Nat.pow_lt_pow_iff_right (by decide)).1 (Nat.lt_of_le_of_lt (hscaled ▸ hone) htenths)
        have hsplit : 10 ^ 16 = 10 ^ (16 - (j + 1)) * 10 ^ (j + 1) := by
          rw [← Nat.pow_add, Nat.sub_add_cancel hj.le]
        rw [← hscaled, hsplit] at htenths
        exact ⟨Nat.lt_of_mul_lt_mul_right htenths, hj⟩
      have hrange := (Nat.length_toDigits_le_iff (b := 10) (by decide) (by omega)).2 hdigits.left
      refine ⟨_, '0', magnitudeText_toList (j := j) hn (by omega) (by omega), ?_⟩
      rw [← hscaled, Nat.pow_succ, ← Nat.mul_assoc]
      exact spellTenths_ones hn

-- So a double with whole tenths is written with its sign and one place.
theorem exists_text {x : Double} (hx : x.size = tenths / 10) (hlimit : x.size < tenthsLimit) :
    ∃ whole place, SpellTenths whole place tenths ∧
      (compact.text x).toList = (if x.isNegative then ['-'] else []) ++ (whole ++ ['.', place]) := by
  have ⟨hvalue, hpower⟩ := shortest_spec hx hlimit
  obtain ⟨whole, place, htext, hspell⟩ := exists_magnitudeText (hvalue.trans hx) (hvalue ▸ hlimit) hpower
  refine ⟨whole, place, hspell, ?_⟩
  rw [Style.text, String.toList_append, htext]
  split <;> rfl

end

end StationScript.Double
