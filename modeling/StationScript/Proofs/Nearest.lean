import Mathlib.Algebra.Order.Field.Power
import Mathlib.Data.Rat.Cast.Order
import Mathlib.Tactic.FieldSimp
import Mathlib.Tactic.GCongr
import Mathlib.Tactic.Linarith
import Mathlib.Tactic.NormNum
import Mathlib.Tactic.Ring
import StationScript.Double

namespace StationScript

namespace Rounding

variable {num num' den den' c : Nat}

theorem halfEven_mul_mul_left (hc : 0 < c) : halfEven (c * num) (c * den) = halfEven num den := by
  have hmod : 2 * (c * num % (c * den)) = c * (2 * (num % den)) := by rw [Nat.mul_mod_mul_left]; ring
  simp only [halfEven, Nat.mul_div_mul_left _ _ hc, hmod, Nat.mul_lt_mul_left hc]

theorem div_le_halfEven : num / den ≤ halfEven num den := by
  unfold halfEven
  dsimp only
  split <;> [skip; split] <;> omega

theorem halfEven_le_div_succ : halfEven num den ≤ num / den + 1 := by
  unfold halfEven
  dsimp only
  split <;> [skip; split] <;> omega

theorem halfEven_mono (h : num ≤ num') : halfEven num den ≤ halfEven num' den := by
  rcases (Nat.div_le_div_right h : num / den ≤ num' / den).lt_or_eq with hlt | heq
  case inl => exact halfEven_le_div_succ.trans (Nat.le_trans hlt div_le_halfEven)
  case inr =>
    have hmod : num % den ≤ num' % den := by
      have hnum := Nat.div_add_mod num den
      have hnum' := Nat.div_add_mod num' den
      rw [heq] at hnum
      omega
    unfold halfEven
    dsimp only
    rw [heq]
    split <;> [skip; split] <;> split <;> [skip; split; skip; split; skip; split] <;> omega

-- A larger quotient is not rounded to a smaller integer.
theorem halfEven_le_halfEven (hden : 0 < den) (hden' : 0 < den') (h : (num / den : ℚ) ≤ num' / den') :
    halfEven num den ≤ halfEven num' den' := by
  have hcross : den' * num ≤ den * num' := by
    rw [div_le_div_iff₀ (by exact_mod_cast hden) (by exact_mod_cast hden')] at h
    have h : num * den' ≤ num' * den := by exact_mod_cast h
    linarith
  have hscale : halfEven (den' * num) (den' * den) = halfEven num den := halfEven_mul_mul_left hden'
  have hscale' : halfEven (den * num') (den' * den) = halfEven num' den' := by
    rw [Nat.mul_comm den' den, halfEven_mul_mul_left hden]
  rw [← hscale, ← hscale']
  exact halfEven_mono hcross

theorem abs_halfEven_sub_le (hden : 0 < den) : |(halfEven num den : ℚ) - num / den| ≤ 1 / 2 := by
  have hpos : (0 : ℚ) < den := by exact_mod_cast hden
  have hbelow : (2 * (den * halfEven num den) : ℚ) ≤ 2 * num + den := by exact_mod_cast halfEven_le hden
  have habove : (2 * num : ℚ) ≤ 2 * (den * halfEven num den) + den := by exact_mod_cast le_halfEven hden
  have hnum : (num : ℚ) = num / den * den := by field_simp
  rw [abs_le]
  constructor <;> nlinarith

end Rounding

namespace Double

section

variable {num den : Nat} {k : Int}

theorem two_pos (k : Int) : 0 < two k :=
  Nat.pow_pos (by decide)

theorem cast_two (k : Int) : (two k : ℚ) = 2 ^ k * two (-k) := by
  have hcast (k : Int) (hk : 0 ≤ k) : (two k : ℚ) = 2 ^ k := by
    calc (two k : ℚ) = 2 ^ k.toNat := by simp [two]
      _ = 2 ^ (k.toNat : Int) := (zpow_natCast ..).symm
      _ = 2 ^ k := by rw [Int.toNat_of_nonneg hk]
  rcases le_total 0 k with hk | hk
  case inl =>
    have hone : two (-k) = 1 := by simp [two, Int.toNat_eq_zero.2 (Int.neg_nonpos_of_nonneg hk)]
    rw [hcast k hk, hone, Nat.cast_one, mul_one]
  case inr =>
    have hone : two k = 1 := by simp [two, Int.toNat_eq_zero.2 hk]
    rw [hcast (-k) (Int.neg_nonneg_of_nonpos hk), hone, ← zpow_add₀ (by norm_num), add_neg_cancel, zpow_zero,
      Nat.cast_one]

-- The quotient of natural numbers that stands for a number times a power of two.
theorem quotient_div (m : Nat) (e : Int) : ((quotient m e).1 / (quotient m e).2 : ℚ) = m * 2 ^ e := by
  have hpos : (two (-e) : ℚ) ≠ 0 := by exact_mod_cast (two_pos (-e)).ne'
  rw [quotient, Nat.cast_mul, cast_two e]
  field_simp

-- The same quotient, measured in units of a power of two.
theorem div_two (num den : Nat) (e : Int) :
    ((num * two (-e) : Nat) / (den * two e : Nat) : ℚ) = num / den / 2 ^ e := by
  have hpos : (two (-e) : ℚ) ≠ 0 := by exact_mod_cast (two_pos (-e)).ne'
  rw [Nat.cast_mul, Nat.cast_mul, cast_two e]
  field_simp

theorem cast_two_le_log2 {n : Nat} (hn : 0 < n) : (2 : ℚ) ^ (n.log2 : Int) ≤ n ∧ (n : ℚ) < 2 ^ (n.log2 + 1 : Int) := by
  constructor
  · rw [zpow_natCast]
    exact_mod_cast Nat.log2_self_le hn.ne'
  · rw [← Nat.cast_succ, zpow_natCast]
    exact_mod_cast Nat.lt_log2_self

-- A quotient lies in its binade.
theorem binade_spec (hnum : 0 < num) (hden : 0 < den) :
    (2 : ℚ) ^ binade num den ≤ num / den ∧ (num / den : ℚ) < 2 ^ (binade num den + 1) := by
  have ⟨hnumle, hnumlt⟩ := cast_two_le_log2 hnum
  have ⟨hdenle, hdenlt⟩ := cast_two_le_log2 hden
  have hpos : (0 : ℚ) < den := by exact_mod_cast hden
  let k : Int := (num.log2 : Int) - den.log2
  have hbelow : (2 : ℚ) ^ (k - 1) ≤ num / den := by
    rw [le_div_iff₀ hpos]
    calc (2 : ℚ) ^ (k - 1) * den ≤ 2 ^ (k - 1) * 2 ^ (den.log2 + 1 : Int) := by gcongr
      _ = 2 ^ (num.log2 : Int) := by rw [← zpow_add₀ (by norm_num)]; congr 1; omega
      _ ≤ num := hnumle
  have habove : (num / den : ℚ) < 2 ^ (k + 1) := by
    rw [div_lt_iff₀ hpos]
    calc (num : ℚ) < 2 ^ (num.log2 + 1 : Int) := hnumlt
      _ = 2 ^ (k + 1) * 2 ^ (den.log2 : Int) := by rw [← zpow_add₀ (by norm_num)]; congr 1; omega
      _ ≤ 2 ^ (k + 1) * den := by gcongr
  have hlimit : num * two (-k) < den * two k ↔ (num / den : ℚ) < 2 ^ k := by
    have hunit : (0 : ℚ) < (den * two k : Nat) := by exact_mod_cast Nat.mul_pos hden (two_pos k)
    rw [← div_lt_one₀ (zpow_pos (by norm_num) k), ← div_two, div_lt_one₀ hunit, Nat.cast_lt]
  have hbinade : binade num den = if num * two (-k) < den * two k then k - 1 else k := rfl
  rw [hbinade]
  split
  case isTrue h  => exact ⟨hbelow, by rw [sub_add_cancel]; exact hlimit.1 h⟩
  case isFalse h => exact ⟨not_lt.1 (hlimit.not.1 h), habove⟩

end

section

variable {k m n : Nat}

theorem hiddenBit_pos : 0 < hiddenBit :=
  two_pos 52

-- The size of the doubles of a magnitude: a significand times a power of two.
def sizeOf (m : Nat) : ℚ :=
  (if m / hiddenBit = 0 then m % hiddenBit else hiddenBit + m % hiddenBit : Nat) *
    2 ^ ((max (m / hiddenBit) 1 : Nat) - 1075 : Int)

-- Magnitudes are numbered binade by binade. The last significand of a binade is the first one of the next binade.
theorem sizeOf_add {s : Nat} (hs : s ≤ 2 * hiddenBit) (hk : k ≠ 0 → hiddenBit ≤ s) :
    sizeOf (k * hiddenBit + s) = s * 2 ^ (k - 1074 : Int) := by
  have hpos := hiddenBit_pos
  rcases Nat.lt_or_ge s hiddenBit with hlt | hge
  case inl =>
    obtain rfl : k = 0 := Classical.not_not.1 fun hne => Nat.not_le_of_lt hlt (hk hne)
    rw [sizeOf, Nat.zero_mul, Nat.zero_add, Nat.div_eq_of_lt hlt, Nat.mod_eq_of_lt hlt]
    norm_num
  case inr =>
    have hsize {j t : Nat} (ht : t < hiddenBit) (hj : j ≠ 0) :
        sizeOf (t + hiddenBit * j) = (hiddenBit + t : Nat) * 2 ^ (j - 1075 : Int) := by
      rw [sizeOf, Nat.add_mul_div_left _ _ hpos, Nat.add_mul_mod_self_left, Nat.div_eq_of_lt ht, Nat.mod_eq_of_lt ht,
        Nat.zero_add, if_neg hj, max_eq_left (Nat.one_le_iff_ne_zero.2 hj)]
    rcases hs.lt_or_eq with hlt | rfl
    case inl =>
      obtain ⟨t, rfl⟩ := Nat.exists_eq_add_of_le hge
      have hsum : k * hiddenBit + (hiddenBit + t) = t + hiddenBit * (k + 1) := by ring
      rw [hsum, hsize (by omega) (by omega)]
      congr 2
      push_cast
      ring
    case inr =>
      have hsum : k * hiddenBit + 2 * hiddenBit = 0 + hiddenBit * (k + 2) := by ring
      have htwo : (2 : ℚ) ^ ((k + 2 : Nat) - 1075 : Int) = 2 * 2 ^ (k - 1074 : Int) := by
        rw [← zpow_one_add₀ (by norm_num)]
        congr 1
        push_cast
        ring
      rw [hsum, hsize hpos (by omega), htwo]
      push_cast
      ring

theorem exists_eq_add (m : Nat) : ∃ k s, m = k * hiddenBit + s ∧ s < 2 * hiddenBit ∧ (k ≠ 0 → hiddenBit ≤ s) := by
  rcases Nat.lt_or_ge m hiddenBit with hlt | hge
  case inl => exact ⟨0, m, by simp, by omega, fun h => absurd rfl h⟩
  case inr =>
    have hmod := Nat.mod_lt m hiddenBit_pos
    have hdiv := Nat.div_add_mod' m hiddenBit
    have hpos := Nat.div_pos hge hiddenBit_pos
    refine ⟨m / hiddenBit - 1, hiddenBit + m % hiddenBit, ?_, by omega, fun _ => by omega⟩
    rw [← Nat.add_assoc, ← Nat.succ_mul, Nat.succ_eq_add_one, Nat.sub_add_cancel hpos, hdiv]

theorem sizeOf_lt_succ (m : Nat) : sizeOf m < sizeOf (m + 1) := by
  obtain ⟨k, s, rfl, hs, hk⟩ := exists_eq_add m
  rw [sizeOf_add hs.le hk, Nat.add_assoc, sizeOf_add hs fun h => Nat.le_succ_of_le (hk h)]
  gcongr
  exact Nat.lt_succ_self s

-- Sizes are ordered as magnitudes are.
theorem sizeOf_strictMono : StrictMono sizeOf :=
  strictMono_nat_of_lt_succ sizeOf_lt_succ

theorem sizeOf_nonneg (m : Nat) : 0 ≤ sizeOf m := by
  unfold sizeOf
  positivity

theorem sizeOf_zero : sizeOf 0 = 0 := by
  simp [sizeOf]

end

section

variable {num den num' den' : Nat}

-- A quotient is rounded to a number of steps, which are powers of two.
def stepExponent (num den : Nat) : Int :=
  max (binade num den - 52) (-1074)

def steps (num den : Nat) : Nat :=
  Rounding.halfEven (num * two (-stepExponent num den)) (den * two (stepExponent num den))

-- The magnitude that is counted in steps, finite or not.
def roundedMagnitude (num den : Nat) : Nat :=
  (stepExponent num den + 1074).toNat * hiddenBit + steps num den

theorem nearestMagnitude_eq (hnum : 0 < num) :
    nearestMagnitude num den = min (roundedMagnitude num den) infinityMagnitude := by
  rw [nearestMagnitude, if_neg hnum.ne']
  rfl

theorem abs_steps_sub_le (num : Nat) (hden : 0 < den) :
    |(steps num den : ℚ) - num / den / 2 ^ stepExponent num den| ≤ 1 / 2 := by
  rw [← div_two]
  exact Rounding.abs_halfEven_sub_le (Nat.mul_pos hden (two_pos _))

-- Rounding does not go beyond a number of steps that the quotient does not go beyond.
theorem steps_le_of_le (hden : 0 < den) {n : Nat} (h : (num / den : ℚ) ≤ n * 2 ^ stepExponent num den) :
    steps num den ≤ n := by
  have hle : ((num * two (-stepExponent num den) : Nat) / (den * two (stepExponent num den) : Nat) : ℚ) ≤
      (n * 1 : Nat) / (1 : Nat) := by
    rw [div_two, div_le_iff₀ (zpow_pos (by norm_num) _)]
    simpa using h
  have hsteps := Rounding.halfEven_le_halfEven (Nat.mul_pos hden (two_pos _)) Nat.one_pos hle
  rwa [Rounding.halfEven_mul_right _ Nat.one_pos] at hsteps

theorem le_steps_of_le (hden : 0 < den) {n : Nat} (h : n * 2 ^ stepExponent num den ≤ (num / den : ℚ)) :
    n ≤ steps num den := by
  have hle : ((n * 1 : Nat) / (1 : Nat) : ℚ) ≤
      (num * two (-stepExponent num den) : Nat) / (den * two (stepExponent num den) : Nat) := by
    rw [div_two, le_div_iff₀ (zpow_pos (by norm_num) _)]
    simpa using h
  have hsteps := Rounding.halfEven_le_halfEven Nat.one_pos (Nat.mul_pos hden (two_pos _)) hle
  rwa [Rounding.halfEven_mul_right _ Nat.one_pos] at hsteps

theorem cast_hiddenBit : (hiddenBit : ℚ) = 2 ^ (52 : Int) := by
  have hpow : hiddenBit = 2 ^ 52 := rfl
  rw [hpow]
  norm_num

-- A quotient does not reach beyond the significands of its binade, and above the least exponent not below them.
theorem le_mul_step (hnum : 0 < num) (hden : 0 < den) :
    (num / den : ℚ) ≤ (2 * hiddenBit : Nat) * 2 ^ stepExponent num den := by
  have ⟨_, hlt⟩ := binade_spec hnum hden
  calc (num / den : ℚ) ≤ 2 ^ (binade num den + 1) := hlt.le
    _ ≤ 2 ^ (53 + stepExponent num den) := zpow_le_zpow_right₀ (by norm_num) (by unfold stepExponent; omega)
    _ = (2 * hiddenBit : Nat) * 2 ^ stepExponent num den := by
      rw [zpow_add₀ (by norm_num), Nat.cast_mul, cast_hiddenBit]
      norm_num

theorem mul_step_le (hnum : 0 < num) (hden : 0 < den) (he : stepExponent num den ≠ -1074) :
    hiddenBit * 2 ^ stepExponent num den ≤ (num / den : ℚ) := by
  have ⟨hle, _⟩ := binade_spec hnum hden
  calc (hiddenBit : ℚ) * 2 ^ stepExponent num den = 2 ^ (52 + stepExponent num den) := by
        rw [zpow_add₀ (by norm_num), cast_hiddenBit]
    _ ≤ 2 ^ binade num den := zpow_le_zpow_right₀ (by norm_num) (by unfold stepExponent at he ⊢; omega)
    _ ≤ num / den := hle

theorem steps_le (hnum : 0 < num) (hden : 0 < den) : steps num den ≤ 2 * hiddenBit :=
  steps_le_of_le hden (le_mul_step hnum hden)

theorem le_steps (hnum : 0 < num) (hden : 0 < den) (he : stepExponent num den ≠ -1074) :
    hiddenBit ≤ steps num den :=
  le_steps_of_le hden (mul_step_le hnum hden he)

theorem sizeOf_rounded (hnum : 0 < num) (hden : 0 < den) :
    sizeOf (roundedMagnitude num den) = steps num den * 2 ^ stepExponent num den := by
  have hlow : -1074 ≤ stepExponent num den := le_max_right _ _
  rw [roundedMagnitude, sizeOf_add (steps_le hnum hden) fun hk => le_steps hnum hden (by omega)]
  congr 2
  omega

-- A rounded quotient is off by half a step at most.
theorem abs_sizeOf_rounded_sub_le (hnum : 0 < num) (hden : 0 < den) :
    |sizeOf (roundedMagnitude num den) - num / den| ≤ 2 ^ stepExponent num den / 2 := by
  have hstep : (0 : ℚ) < 2 ^ stepExponent num den := zpow_pos (by norm_num) _
  have hscaled : sizeOf (roundedMagnitude num den) - num / den =
      (steps num den - num / den / 2 ^ stepExponent num den) * 2 ^ stepExponent num den := by
    rw [sizeOf_rounded hnum hden]
    field_simp
  calc |sizeOf (roundedMagnitude num den) - num / den|
      = |(steps num den : ℚ) - num / den / 2 ^ stepExponent num den| * 2 ^ stepExponent num den := by
        rw [hscaled, abs_mul, abs_of_pos hstep]
    _ ≤ 1 / 2 * 2 ^ stepExponent num den := mul_le_mul_of_nonneg_right (abs_steps_sub_le num hden) hstep.le
    _ = 2 ^ stepExponent num den / 2 := by ring

theorem binade_mono (hnum : 0 < num) (hden : 0 < den) (hnum' : 0 < num') (hden' : 0 < den')
    (h : (num / den : ℚ) ≤ num' / den') : binade num den ≤ binade num' den' := by
  have ⟨hle, _⟩ := binade_spec hnum hden
  have ⟨_, hlt⟩ := binade_spec hnum' hden'
  have hpow : (2 : ℚ) ^ binade num den < 2 ^ (binade num' den' + 1) := hle.trans_lt (h.trans_lt hlt)
  exact Int.lt_add_one_iff.1 ((zpow_lt_zpow_iff_right₀ (by norm_num)).1 hpow)

-- A larger quotient is not rounded to a smaller double.
theorem roundedMagnitude_mono (hnum : 0 < num) (hden : 0 < den) (hnum' : 0 < num') (hden' : 0 < den')
    (h : (num / den : ℚ) ≤ num' / den') : roundedMagnitude num den ≤ roundedMagnitude num' den' := by
  have hbinade := binade_mono hnum hden hnum' hden' h
  have hlow : -1074 ≤ stepExponent num den := le_max_right _ _
  have he : stepExponent num den ≤ stepExponent num' den' := max_le_max_right _ (by omega)
  rcases he.lt_or_eq with hlt | heq
  case inl =>
    -- In a higher binade even the first significand is large enough.
    have hsteps := steps_le hnum hden
    have hsteps' := le_steps hnum' hden' (by omega)
    have hk : (stepExponent num den + 1074).toNat + 1 ≤ (stepExponent num' den' + 1074).toNat := by omega
    have hbinades := Nat.mul_le_mul_right hiddenBit hk
    unfold roundedMagnitude
    linarith
  case inr =>
    rw [roundedMagnitude, roundedMagnitude, heq]
    refine Nat.add_le_add_left ?_ _
    have hsteps : (num / den / 2 ^ stepExponent num den : ℚ) ≤ num' / den' / 2 ^ stepExponent num' den' := by
      rw [heq]
      gcongr
    rw [← div_two, ← div_two] at hsteps
    exact Rounding.halfEven_le_halfEven (Nat.mul_pos hden (two_pos _)) (Nat.mul_pos hden' (two_pos _)) hsteps

theorem nearestMagnitude_mono (hden : 0 < den) (hden' : 0 < den') (h : (num / den : ℚ) ≤ num' / den') :
    nearestMagnitude num den ≤ nearestMagnitude num' den' := by
  rcases Nat.eq_zero_or_pos num with rfl | hnum
  case inl => exact Nat.zero_le _
  case inr =>
    have hpos : (0 : ℚ) < num / den := div_pos (by exact_mod_cast hnum) (by exact_mod_cast hden)
    have hnum' : 0 < num' := by
      refine Nat.pos_of_ne_zero fun hzero => ?_
      rw [hzero, Nat.cast_zero, zero_div] at h
      exact absurd h (not_le.2 hpos)
    rw [nearestMagnitude_eq hnum, nearestMagnitude_eq hnum']
    exact min_le_min_right _ (roundedMagnitude_mono hnum hden hnum' hden' h)

-- A quotient below some power of two is off by its 54th part at most, in powers of two.
theorem abs_sizeOf_nearest_sub_le (hden : 0 < den) {j : Int} (hj : -1021 ≤ j) (h : (num / den : ℚ) < 2 ^ j)
    (hfinite : nearestMagnitude num den < infinityMagnitude) :
    |sizeOf (nearestMagnitude num den) - num / den| ≤ 2 ^ (j - 54) := by
  rcases Nat.eq_zero_or_pos num with rfl | hnum
  case inl =>
    have hzero : nearestMagnitude 0 den = 0 := rfl
    rw [hzero, sizeOf_zero, Nat.cast_zero, zero_div, sub_zero, abs_zero]
    positivity
  case inr =>
    have hrounded : nearestMagnitude num den = roundedMagnitude num den := by
      rw [nearestMagnitude_eq hnum] at hfinite ⊢
      exact min_eq_left (by omega)
    have hbinade : binade num den < j := by
      have ⟨hle, _⟩ := binade_spec hnum hden
      exact (zpow_lt_zpow_iff_right₀ (by norm_num)).1 (hle.trans_lt h)
    have hexponent : stepExponent num den ≤ j - 53 := by unfold stepExponent; omega
    calc |sizeOf (nearestMagnitude num den) - num / den| ≤ 2 ^ stepExponent num den / 2 :=
          hrounded ▸ abs_sizeOf_rounded_sub_le hnum hden
      _ ≤ 2 ^ (j - 53) / 2 := by gcongr; norm_num
      _ = 2 ^ (j - 54) := by
        have hpow : (2 : ℚ) ^ (j - 53) = 2 ^ (j - 54) * 2 := by
          rw [← zpow_add_one₀ (by norm_num)]
          congr 1
          ring
        rw [hpow, mul_div_cancel_right₀ _ (by norm_num)]

-- No other number of steps is nearer.
theorem abs_sizeOf_rounded_sub_le_steps (hnum : 0 < num) (hden : 0 < den) (n : Nat) :
    |sizeOf (roundedMagnitude num den) - num / den| ≤ |n * 2 ^ stepExponent num den - (num / den : ℚ)| := by
  have hstep : (0 : ℚ) < 2 ^ stepExponent num den := zpow_pos (by norm_num) _
  have hrounded := abs_sizeOf_rounded_sub_le hnum hden
  rw [sizeOf_rounded hnum hden] at hrounded ⊢
  rcases eq_or_ne n (steps num den) with rfl | hne
  case inl => exact le_rfl
  case inr =>
    have hdistance : (1 : ℚ) ≤ |(n : ℚ) - steps num den| := by
      have hint : (1 : Int) ≤ |(n : Int) - steps num den| := Int.one_le_abs (by omega)
      exact_mod_cast hint
    have hapart : 2 ^ stepExponent num den ≤
        |n * 2 ^ stepExponent num den - (steps num den * 2 ^ stepExponent num den : ℚ)| := by
      rw [← sub_mul, abs_mul, abs_of_pos hstep]
      exact le_mul_of_one_le_left hstep.le hdistance
    have htriangle :=
      abs_sub_le (n * 2 ^ stepExponent num den : ℚ) (num / den) (steps num den * 2 ^ stepExponent num den)
    rw [abs_sub_comm (num / den : ℚ)] at htriangle
    linarith

-- No size of a magnitude is nearer.
theorem abs_sizeOf_rounded_sub_le_sizeOf (hnum : 0 < num) (hden : 0 < den) (m : Nat) :
    |sizeOf (roundedMagnitude num den) - num / den| ≤ |sizeOf m - num / den| := by
  have hlow : -1074 ≤ stepExponent num den := le_max_right _ _
  let k := (stepExponent num den + 1074).toNat
  have hsize {n : Nat} (hn : n ≤ 2 * hiddenBit) (hk : k ≠ 0 → hiddenBit ≤ n) :
      sizeOf (k * hiddenBit + n) = n * 2 ^ stepExponent num den := by
    rw [sizeOf_add hn hk]
    congr 2
    omega
  have hsteps := abs_sizeOf_rounded_sub_le_steps hnum hden
  rcases Nat.lt_or_ge (k * hiddenBit + 2 * hiddenBit) m with hover | hm
  case inl =>
    -- Beyond the binade, where its end is nearer.
    have hend := hsize le_rfl fun _ => by omega
    have hfar : sizeOf (k * hiddenBit + 2 * hiddenBit) < sizeOf m := sizeOf_strictMono hover
    have hquotient := le_mul_step hnum hden
    refine (hsteps (2 * hiddenBit)).trans ?_
    rw [abs_of_nonneg (by linarith), abs_of_nonneg (by linarith)]
    linarith
  case inr =>
    by_cases hunder : k ≠ 0 ∧ m < k * hiddenBit + hiddenBit
    case pos =>
      -- Below the binade, where its beginning is nearer.
      have hbegin := hsize (n := hiddenBit) (by omega) fun _ => le_rfl
      have hfar : sizeOf m < sizeOf (k * hiddenBit + hiddenBit) := sizeOf_strictMono hunder.right
      have hquotient := mul_step_le hnum hden (by omega)
      refine (hsteps hiddenBit).trans ?_
      rw [abs_of_nonpos (by linarith), abs_of_nonpos (by linarith)]
      linarith
    case neg =>
      have hwithin : k * hiddenBit ≤ m := by
        rcases Nat.eq_zero_or_pos k with hzero | hpos
        · simp [hzero]
        · omega
      obtain ⟨n, rfl⟩ := Nat.exists_eq_add_of_le hwithin
      rw [hsize (by omega) (by omega)]
      exact hsteps n

-- A whole number of steps is kept.
theorem steps_of_eq (hden : 0 < den) {n : Nat} (h : (num / den : ℚ) = n * 2 ^ stepExponent num den) :
    steps num den = n :=
  Nat.le_antisymm (steps_le_of_le hden h.le) (le_steps_of_le hden h.ge)

-- The size of a magnitude is rounded to that magnitude.
theorem nearestMagnitude_of_eq (hden : 0 < den) {m : Nat} (h : (num / den : ℚ) = sizeOf m)
    (hm : m < infinityMagnitude) : nearestMagnitude num den = m := by
  rcases Nat.eq_zero_or_pos num with rfl | hnum
  case inl =>
    rw [Nat.cast_zero, zero_div, ← sizeOf_zero] at h
    exact sizeOf_strictMono.injective h
  case inr =>
    have hexact := abs_sizeOf_rounded_sub_le_sizeOf hnum hden m
    rw [h, sub_self, abs_zero] at hexact
    have hrounded : roundedMagnitude num den = m :=
      sizeOf_strictMono.injective (sub_eq_zero.1 (abs_nonpos_iff.1 hexact))
    rw [nearestMagnitude_eq hnum, hrounded, min_eq_left hm.le]

end

section

variable {x y : Double} {negative : Bool} {m n : Nat}

-- The size of a finite double, and its value.
def size (x : Double) : ℚ :=
  x.significand * 2 ^ x.exponent

def value (x : Double) : ℚ :=
  if x.isNegative then -x.size else x.size

theorem size_eq (x : Double) : x.size = sizeOf x.magnitude :=
  rfl

theorem abs_value (x : Double) : |x.value| = x.size := by
  have hsize : |x.size| = x.size := abs_of_nonneg (sizeOf_nonneg x.magnitude)
  rw [value]
  split
  · rw [abs_neg, hsize]
  · exact hsize

theorem infinityMagnitude_lt : infinityMagnitude < signBit := by
  decide

theorem toNat_ofMagnitude (hm : m < signBit) :
    (ofMagnitude negative m).bits.toNat = if negative then signBit + m else m := by
  have hbits : 2 * signBit = 2 ^ 64 := by decide
  have hlt : (if negative then signBit + m else m) < 2 ^ 64 := by split <;> omega
  exact UInt64.toNat_ofNat_of_lt' hlt

theorem magnitude_ofMagnitude (hm : m < signBit) : (ofMagnitude negative m).magnitude = m := by
  rw [magnitude, toNat_ofMagnitude hm]
  cases negative
  case false => exact Nat.mod_eq_of_lt hm
  case true  => exact (Nat.add_mod_left ..).trans (Nat.mod_eq_of_lt hm)

theorem isNegative_ofMagnitude (hm : m < signBit) : (ofMagnitude negative m).isNegative = negative := by
  rw [isNegative, toNat_ofMagnitude hm]
  cases negative
  case false => simpa using hm
  case true  => simp

theorem magnitude_lt (x : Double) : x.magnitude < signBit :=
  Nat.mod_lt _ (two_pos 63)

-- A double is its sign with its magnitude.
theorem ofMagnitude_magnitude (x : Double) : ofMagnitude x.isNegative x.magnitude = x := by
  have hbits : 2 * signBit = 2 ^ 64 := by decide
  have hlt := x.bits.toNat_lt
  have hsum : (if x.isNegative then signBit + x.magnitude else x.magnitude) = x.bits.toNat := by
    have hdiv := Nat.div_add_mod x.bits.toNat signBit
    by_cases hneg : signBit ≤ x.bits.toNat
    case pos =>
      have hone : x.bits.toNat / signBit = 1 := Nat.div_eq_of_lt_le (by omega) (by omega)
      rw [hone, Nat.mul_one] at hdiv
      simp only [isNegative, hneg, decide_true, if_true]
      exact hdiv
    case neg =>
      simp only [isNegative, hneg, decide_false, magnitude]
      exact Nat.mod_eq_of_lt (Nat.lt_of_not_le hneg)
  have hbits : UInt64.ofNat x.bits.toNat = x.bits := UInt64.ofNat_toNat
  rw [ofMagnitude, hsum, hbits]

theorem magnitude_neg (x : Double) : x.neg.magnitude = x.magnitude :=
  magnitude_ofMagnitude x.magnitude_lt

theorem isNegative_neg (x : Double) : x.neg.isNegative = !x.isNegative :=
  isNegative_ofMagnitude x.magnitude_lt

theorem nearestMagnitude_le (num den : Nat) : nearestMagnitude num den ≤ infinityMagnitude := by
  rcases Nat.eq_zero_or_pos num with rfl | hnum
  case inl => exact Nat.zero_le _
  case inr =>
    rw [nearestMagnitude_eq hnum]
    exact min_le_right _ _

theorem magnitude_nearest (num den : Nat) : (nearest negative num den).magnitude = nearestMagnitude num den :=
  magnitude_ofMagnitude ((nearestMagnitude_le num den).trans_lt infinityMagnitude_lt)

theorem isNegative_nearest (num den : Nat) : (nearest negative num den).isNegative = negative :=
  isNegative_ofMagnitude ((nearestMagnitude_le num den).trans_lt infinityMagnitude_lt)

-- What is not finite is infinite or not a number.
theorem isFinite_iff : x.isFinite ↔ x.isNaN = false ∧ x.isInfinite = false := by
  simp only [isFinite, isNaN, isInfinite, decide_eq_true_eq, decide_eq_false_iff_not, beq_eq_false_iff_ne]
  omega

theorem isFinite_or_eq_infinity (h : x.isNaN = false) : x.isFinite ∨ x = infinity x.isNegative := by
  by_cases hinf : x.isInfinite = true
  case pos =>
    rw [isInfinite, beq_iff_eq] at hinf
    exact .inr (by rw [infinity, ← hinf, ofMagnitude_magnitude])
  case neg => exact .inl (isFinite_iff.2 ⟨h, by simpa using hinf⟩)

theorem sizeOf_infinityMagnitude : sizeOf infinityMagnitude = 2 ^ (1024 : Int) := by
  have hsum : infinityMagnitude = 2046 * hiddenBit + hiddenBit := rfl
  rw [hsum, sizeOf_add (by omega) fun _ => le_rfl, cast_hiddenBit, ← zpow_add₀ (by norm_num)]
  rfl

theorem isFinite_iff_size_lt : x.isFinite ↔ x.size < 2 ^ (1024 : Int) := by
  rw [← sizeOf_infinityMagnitude, size_eq, sizeOf_strictMono.lt_iff_lt, isFinite, decide_eq_true_iff]

theorem natCast_lt_two_zpow (h : n < 2 * hiddenBit) : (n : ℚ) < 2 ^ (53 : Int) := by
  calc (n : ℚ) < (2 * hiddenBit : Nat) := by exact_mod_cast h
    _ = 2 ^ (53 : Int) := by
      rw [Nat.cast_mul, cast_hiddenBit]
      norm_num

-- What a significand times a power of two that is in range comes to is a double.
theorem sizeOf_nearestMagnitude {num den : Nat} {j : Int} (hden : 0 < den) (h : (num / den : ℚ) = n * 2 ^ j)
    (hn : n < 2 * hiddenBit) (hleast : -1074 ≤ j) (hgreatest : j ≤ 971) :
    sizeOf (nearestMagnitude num den) = n * 2 ^ j := by
  rcases Nat.eq_zero_or_pos num with rfl | hnum
  case inl =>
    rw [← h, Nat.cast_zero, zero_div, ← sizeOf_zero]
    rfl
  case inr =>
    have hbelow : (num / den : ℚ) < 2 ^ (53 + j) := by
      rw [h, zpow_add₀ (by norm_num)]
      exact mul_lt_mul_of_pos_right (natCast_lt_two_zpow hn) (zpow_pos (by norm_num) _)
    have hexponent : stepExponent num den ≤ j := by
      have ⟨hle, _⟩ := binade_spec hnum hden
      have hbinade := (zpow_lt_zpow_iff_right₀ (by norm_num : (1 : ℚ) < 2)).1 (hle.trans_lt hbelow)
      unfold stepExponent
      omega
    have hsize : sizeOf (roundedMagnitude num den) = n * 2 ^ j := by
      obtain ⟨i, hi⟩ := Int.eq_ofNat_of_zero_le (Int.sub_nonneg_of_le hexponent)
      have hsteps : (num / den : ℚ) = (n * 2 ^ i : Nat) * 2 ^ stepExponent num den := by
        have hj : j = i + stepExponent num den := by omega
        rw [h, hj, zpow_add₀ (by norm_num), zpow_natCast]
        push_cast
        ring
      rw [sizeOf_rounded hnum hden, steps_of_eq hden hsteps, ← hsteps, h]
    have hfinite : roundedMagnitude num den < infinityMagnitude := by
      rw [← sizeOf_strictMono.lt_iff_lt, hsize, ← h, sizeOf_infinityMagnitude]
      exact hbelow.trans_le (zpow_le_zpow_right₀ (by norm_num) (by omega))
    rw [nearestMagnitude_eq hnum, min_eq_left hfinite.le, hsize]

-- A natural number that fits a significand is a double, and so is its half.
theorem size_ofNat (h : n < 2 * hiddenBit) : (ofNat n).size = n := by
  have hwhole : ((n : Nat) / (1 : Nat) : ℚ) = n * 2 ^ (0 : Int) := by simp
  have hsize := sizeOf_nearestMagnitude Nat.one_pos hwhole h (by decide) (by decide)
  rw [size_eq, ofNat, magnitude_nearest, hsize, zpow_zero, mul_one]

theorem value_ofHalves (h : n < 2 * hiddenBit) : (ofHalves n).value = n / 2 := by
  have hhalf : ((n : Nat) / (2 : Nat) : ℚ) = n * 2 ^ (-1 : Int) := by
    rw [zpow_neg_one, Nat.cast_ofNat, div_eq_mul_inv]
  have hsize := sizeOf_nearestMagnitude Nat.two_pos hhalf h (by decide) (by decide)
  have hsign : ¬(n : Int) < 0 := by omega
  rw [value, ofHalves, isNegative_nearest, decide_eq_false hsign, if_neg Bool.false_ne_true, size_eq, magnitude_nearest,
    Int.natAbs_natCast, hsize, ← hhalf, Nat.cast_ofNat]

theorem isFinite_of_size_lt {j : Int} (h : x.size < 2 ^ j) (hj : j ≤ 1024) : x.isFinite :=
  isFinite_iff_size_lt.2 (h.trans_le (zpow_le_zpow_right₀ (by norm_num) hj))

theorem isFinite_ofNat (h : n < 2 * hiddenBit) : (ofNat n).isFinite :=
  isFinite_of_size_lt ((size_ofNat h).trans_lt (natCast_lt_two_zpow h)) (by decide)

-- The product of finite doubles is the double nearest to the product of their sizes, with its sign.
theorem mul_of_isFinite (hx : x.isFinite) (hy : y.isFinite) :
    ∃ num den : Nat, 0 < den ∧ (num / den : ℚ) = x.size * y.size ∧
      x.mul y = nearest (x.isNegative != y.isNegative) num den := by
  have ⟨hxnan, hxinf⟩ := isFinite_iff.1 hx
  have ⟨hynan, hyinf⟩ := isFinite_iff.1 hy
  let q := quotient (x.significand * y.significand) (x.exponent + y.exponent)
  refine ⟨q.1, q.2, two_pos _, ?_, ?_⟩
  · rw [quotient_div, zpow_add₀ (by norm_num), size, size]
    push_cast
    ring
  · simp only [mul, hxnan, hxinf, hynan, hyinf]
    rfl

-- The quotient of finite doubles is the double nearest to the quotient of their sizes, with its sign.
theorem div_of_isFinite (hx : x.isFinite) (hy : y.isFinite) (hzero : y.magnitude ≠ 0) :
    ∃ num den : Nat, 0 < den ∧ (num / den : ℚ) = x.size / y.size ∧
      x.div y = nearest (x.isNegative != y.isNegative) num den := by
  have ⟨hxnan, hxinf⟩ := isFinite_iff.1 hx
  have ⟨hynan, hyinf⟩ := isFinite_iff.1 hy
  have hsignificand : 0 < y.significand := by
    have hpos : 0 < y.size := by
      rw [size_eq, ← sizeOf_zero]
      exact sizeOf_strictMono (Nat.pos_of_ne_zero hzero)
    refine Nat.pos_of_ne_zero fun hzero => ?_
    rw [size, hzero, Nat.cast_zero, zero_mul] at hpos
    exact lt_irrefl _ hpos
  let q := quotient x.significand (x.exponent - y.exponent)
  refine ⟨q.1, q.2 * y.significand, Nat.mul_pos (two_pos _) hsignificand, ?_, ?_⟩
  · rw [Nat.cast_mul, ← div_div, quotient_div, zpow_sub₀ (by norm_num), size, size]
    field_simp
  · simp only [div, hxnan, hxinf, hynan, hyinf, hzero]
    rfl

end

end Double

end StationScript
