import Mathlib.Algebra.Order.Field.Basic
import StationScript.Proofs.Nearest
import StationScript.Proofs.Numerals
import StationScript.Reading

namespace StationScript

namespace Double

variable {x y : Double}

theorem scaledMagnitude_eq (places : Nat) (x : Double) : scaledMagnitude places x =
    Rounding.halfEven (x.significand * two x.exponent * ten places) (two (-x.exponent)) :=
  rfl

theorem scaled_div (places : Nat) (x : Double) :
    ((x.significand * two x.exponent * ten places : Nat) / two (-x.exponent) : ℚ) = x.size * ten places := by
  rw [Nat.cast_mul, mul_div_right_comm]
  exact congrArg (· * _) (quotient_div x.significand x.exponent)

theorem scaledMagnitude_mono (places : Nat) (h : x.magnitude ≤ y.magnitude) :
    scaledMagnitude places x ≤ scaledMagnitude places y := by
  have hsize : x.size ≤ y.size := sizeOf_strictMono.monotone h
  refine Rounding.halfEven_le_halfEven (two_pos _) (two_pos _) ?_
  rw [scaled_div, scaled_div]
  exact mul_le_mul_of_nonneg_right hsize (Nat.cast_nonneg _)

-- A decimal is off by half a unit of its last place at most.
theorem abs_scaledMagnitude_sub_le (places : Nat) (x : Double) :
    |(scaledMagnitude places x : ℚ) - x.size * ten places| ≤ 1 / 2 := by
  rw [scaledMagnitude_eq, ← scaled_div]
  exact Rounding.abs_halfEven_sub_le (two_pos _)

theorem size_eq_div (x : Double) : x.size = (x.significand * two x.exponent : Nat) / (two (-x.exponent) : ℚ) :=
  (quotient_div x.significand x.exponent).symm

theorem size_eq_natCast {n : Nat} (h : x.significand * two x.exponent = n * two (-x.exponent)) : x.size = n := by
  have hpos : (two (-x.exponent) : ℚ) ≠ 0 := by exact_mod_cast (two_pos (-x.exponent)).ne'
  rw [size_eq_div, h, Nat.cast_mul, mul_div_cancel_right₀ _ hpos]

theorem absLt_iff (hx : x.isFinite) (hy : y.isFinite) : x.absLt y ↔ x.magnitude < y.magnitude := by
  simp [absLt, (isFinite_iff.1 hx).left, (isFinite_iff.1 hy).left]

end Double

namespace Scale

open Double

variable {s t : Scale} {v w : Double}

-- The double at which the band of a scale begins.
def begins : Scale → Double
  | pico => .zero false
  | nano => .nearest false 1 1000000000
  | micro => .nearest false 1 1000000
  | milli => .nearest false 1 1000
  | one => .ofNat 1

-- The double before which it ends.
def ends : Scale → Double
  | pico => .nearest false 1 1000000000
  | nano => .nearest false 1 1000000
  | micro => .nearest false 1 1000
  | milli => .ofNat 1
  | one => .infinity false

theorem ends_le_begins (h : s.power < t.power) : t.ends.magnitude ≤ s.begins.magnitude := by
  cases s <;> cases t <;> first | exact absurd h (by decide) | decide +kernel

-- A scale whose powers differ differ by a thousand at least.
theorem power_add_le (h : s.power < t.power) : s.power + 3 ≤ t.power := by
  cases s <;> cases t <;> first | exact absurd h (by decide) | decide

theorem eq_of_power_eq (h : s.power = t.power) : s = t := by
  cases s <;> cases t <;> first | rfl | exact absurd h (by decide)

-- The scale of a finite value is the first of which the band ends beyond the value.
theorem ofValue_eq (hv : v.isFinite) : ofValue v =
    if v.magnitude < pico.ends.magnitude then pico
    else if v.magnitude < nano.ends.magnitude then nano
    else if v.magnitude < micro.ends.magnitude then micro
    else if v.magnitude < milli.ends.magnitude then milli
    else one := by
  have hfinite : ∀ s ∈ [pico, nano, micro, milli], s.ends.isFinite := by decide +kernel
  have hbelow (s : Scale) (hs : s ∈ [pico, nano, micro, milli]) := absLt_iff hv (hfinite s hs)
  simp only [← hbelow pico (by decide), ← hbelow nano (by decide), ← hbelow micro (by decide),
    ← hbelow milli (by decide)]
  rfl

-- The scale for a number: the first of which the band ends beyond the number.
def ofSize (q : ℚ) : Scale :=
  if q < pico.ends.value then pico
  else if q < nano.ends.value then nano
  else if q < micro.ends.value then micro
  else if q < milli.ends.value then milli
  else one

theorem ofValue_eq_ofSize (hv : v.isFinite) : ofValue v = ofSize |v.value| := by
  have hends : ∀ s ∈ [pico, nano, micro, milli], s.ends.isNegative = false := by decide +kernel
  have hbelow (s : Scale) (hs : s ∈ [pico, nano, micro, milli]) :
      |v.value| < s.ends.value ↔ v.magnitude < s.ends.magnitude := by
    rw [abs_value, value, hends s hs, if_neg Bool.false_ne_true, size_eq, size_eq, sizeOf_strictMono.lt_iff_lt]
  rw [ofValue_eq hv, ofSize]
  simp only [hbelow pico (by decide), hbelow nano (by decide), hbelow micro (by decide), hbelow milli (by decide)]

-- A finite value lies in its band.
theorem mem_band (hv : v.isFinite) :
    (ofValue v).begins.magnitude ≤ v.magnitude ∧ v.magnitude < (ofValue v).ends.magnitude := by
  have hinfinite : one.ends.magnitude = infinityMagnitude := by decide +kernel
  have hzero : pico.begins.magnitude = 0 := by decide +kernel
  have hfinite : v.magnitude < infinityMagnitude := of_decide_eq_true hv
  rw [ofValue_eq hv]
  split_ifs with hpico hnano hmicro hmilli
  · exact ⟨hzero ▸ Nat.zero_le _, hpico⟩
  · exact ⟨Nat.not_lt.1 hpico, hnano⟩
  · exact ⟨Nat.not_lt.1 hnano, hmicro⟩
  · exact ⟨Nat.not_lt.1 hmicro, hmilli⟩
  · exact ⟨Nat.not_lt.1 hmilli, hinfinite ▸ hfinite⟩

-- A larger value is not shown in smaller units.
theorem power_antitone (hv : v.isFinite) (hw : w.isFinite) (h : v.magnitude ≤ w.magnitude) :
    (ofValue w).power ≤ (ofValue v).power := by
  refine Nat.not_lt.1 fun hlt => ?_
  have hlimits := ends_le_begins hlt
  have ⟨hbegins, _⟩ := mem_band hv
  have ⟨_, hends⟩ := mem_band hw
  omega

-- A scaled value is the double nearest to as many of the prefixed units as make up the value.
theorem exists_apply_eq (hv : v.isFinite) (hs : s ≠ one) : ∃ num den : Nat, 0 < den ∧
    (num / den : ℚ) = v.size * 10 ^ s.power ∧ s.apply v = .nearest v.isNegative num den := by
  let factor := Double.ofNat (ten s.power)
  have hfactor : factor.isFinite ∧ factor.isNegative = false := by cases s <;> decide +kernel
  -- The powers of ten that are multiplied with are doubles themselves.
  have hsize : factor.size = (10 ^ s.power : Nat) := size_eq_natCast (by cases s <;> decide +kernel)
  have ⟨num, den, hden, hratio, hmul⟩ := mul_of_isFinite hv hfactor.left
  refine ⟨num, den, hden, by rw [hratio, hsize, Nat.cast_pow, Nat.cast_ofNat], ?_⟩
  rw [hfactor.right, Bool.bne_false] at hmul
  cases s <;> first | exact hmul | exact absurd rfl hs

theorem isNegative_apply (hv : v.isFinite) : (s.apply v).isNegative = v.isNegative := by
  by_cases hs : s = one
  case pos => rw [hs]; rfl
  case neg =>
    have ⟨_, _, _, _, happly⟩ := exists_apply_eq hv hs
    rw [happly, isNegative_nearest]

theorem apply_mono (hv : v.isFinite) (hw : w.isFinite) (h : v.magnitude ≤ w.magnitude) :
    (s.apply v).magnitude ≤ (s.apply w).magnitude := by
  by_cases hs : s = one
  case pos => rw [hs]; exact h
  case neg =>
    have ⟨num, den, hden, hratio, happly⟩ := exists_apply_eq hv hs
    have ⟨num', den', hden', hratio', happly'⟩ := exists_apply_eq hw hs
    rw [happly, happly', magnitude_nearest, magnitude_nearest]
    refine nearestMagnitude_mono hden hden' ?_
    rw [hratio, hratio']
    exact mul_le_mul_of_nonneg_right (sizeOf_strictMono.monotone h) (by positivity)

-- How many thousandths of a prefixed unit are shown.
def thousandths (s : Scale) (v : Double) : Nat :=
  scaledMagnitude 3 (s.apply v)

theorem thousandths_mono (hv : v.isFinite) (hw : w.isFinite) (h : v.magnitude ≤ w.magnitude) :
    s.thousandths v ≤ s.thousandths w :=
  scaledMagnitude_mono 3 (apply_mono hv hw h)

-- What is shown depends on the magnitude only.
theorem thousandths_congr (hv : v.isFinite) (hw : w.isFinite) (h : v.magnitude = w.magnitude) :
    s.thousandths v = s.thousandths w :=
  Nat.le_antisymm (thousandths_mono hv hw h.le) (thousandths_mono hw hv h.ge)

theorem isFinite_of_lt {limit : Double} (h : v.magnitude < limit.magnitude) (hlimit : limit.isFinite) : v.isFinite :=
  decide_eq_true (Nat.lt_trans h (of_decide_eq_true hlimit))

-- What a band ends with; whatever grows with the value is bounded by it within the band.
theorem ends_spec (hs : s ≠ one) : s.ends.isFinite ∧ (s.apply s.ends).isFinite ∧ s.thousandths s.ends = 1000000 := by
  cases s <;> first | decide +kernel | exact absurd rfl hs

-- Within a band a prefixed unit is shown a thousand times at most, even where the value is rounded up.
theorem thousandths_le (hs : s ≠ one) (h : v.magnitude < s.ends.magnitude) : s.thousandths v ≤ 1000000 := by
  have ⟨hends, _, hlimit⟩ := ends_spec hs
  exact hlimit ▸ thousandths_mono (isFinite_of_lt h hends) hends h.le

-- And once at least, but with the least prefix.
theorem le_thousandths (hs : s ≠ pico) (hv : v.isFinite) (h : s.begins.magnitude ≤ v.magnitude) :
    1000 ≤ s.thousandths v := by
  have hbegins : s.begins.isFinite := by cases s <;> decide +kernel
  have hlimit : s.thousandths s.begins = 1000 := by cases s <;> first | decide +kernel | exact absurd rfl hs
  exact hlimit ▸ thousandths_mono hbegins hv h

-- A thousand of the smaller units at most are no more than one of the larger units at least.
theorem thousandths_div_le (h : t.power < s.power) (hends : v.magnitude < s.ends.magnitude) (hw : w.isFinite)
    (hbegins : t.begins.magnitude ≤ w.magnitude) :
    (s.thousandths v / 1000 / 10 ^ s.power : ℚ) ≤ t.thousandths w / 1000 / 10 ^ t.power := by
  have hs : s ≠ one := by rintro rfl; exact absurd h (Nat.not_lt_zero _)
  have ht : t ≠ pico := by rintro rfl; exact absurd h (by cases s <;> decide)
  have hmost : (s.thousandths v : ℚ) ≤ 1000000 := by exact_mod_cast thousandths_le hs hends
  have hleast : (1000 : ℚ) ≤ t.thousandths w := by exact_mod_cast le_thousandths ht hw hbegins
  have hstep : (10 : ℚ) ^ (t.power + 3) ≤ 10 ^ s.power := pow_le_pow_right₀ (by norm_num) (power_add_le h)
  calc (s.thousandths v : ℚ) / 1000 / 10 ^ s.power
      ≤ 1000000 / 1000 / 10 ^ (t.power + 3) := by gcongr
    _ = 1000 / 1000 / 10 ^ t.power := by rw [pow_add]; field_simp; norm_num
    _ ≤ t.thousandths w / 1000 / 10 ^ t.power := by gcongr

theorem isFinite_apply (hv : v.isFinite) (h : v.magnitude < s.ends.magnitude) : (s.apply v).isFinite := by
  by_cases hs : s = one
  case pos => rw [hs]; exact hv
  case neg =>
    have ⟨hends, hfinite, _⟩ := ends_spec hs
    have hmono : (s.apply v).magnitude ≤ (s.apply s.ends).magnitude := apply_mono hv hends h.le
    exact decide_eq_true (Nat.lt_of_le_of_lt hmono (of_decide_eq_true hfinite))

-- Within a band less than 1024 prefixed units make up a value.
theorem size_mul_lt (hs : s ≠ one) (h : v.magnitude < s.ends.magnitude) : v.size * 10 ^ s.power < 2 ^ (10 : Int) := by
  have hends : s.ends.significand * two s.ends.exponent * 10 ^ s.power ≤ 1024 * two (-s.ends.exponent) := by
    cases s <;> first | decide +kernel | exact absurd rfl hs
  have hpos : (0 : ℚ) < two (-s.ends.exponent) := by exact_mod_cast two_pos (-s.ends.exponent)
  calc v.size * 10 ^ s.power < s.ends.size * 10 ^ s.power :=
        mul_lt_mul_of_pos_right (sizeOf_strictMono h) (by positivity)
    _ ≤ 1024 := by
      rw [size_eq_div, div_mul_eq_mul_div, div_le_iff₀ hpos]
      exact_mod_cast hends
    _ = 2 ^ (10 : Int) := by norm_num

-- The decimal is off by half a thousandth at most, and the product by far less.
theorem abs_thousandths_sub_apply_le (s : Scale) (v : Double) :
    |(s.thousandths v : ℚ) / 1000 - (s.apply v).size| ≤ 1 / 2000 := by
  have hplaces : |(s.thousandths v : ℚ) - (s.apply v).size * (1000 : Nat)| ≤ 1 / 2 :=
    abs_scaledMagnitude_sub_le 3 (s.apply v)
  rw [Nat.cast_ofNat, abs_le] at hplaces
  have ⟨hlow, hhigh⟩ := hplaces
  rw [abs_le]
  constructor <;> linarith

theorem abs_apply_sub_le (hv : v.isFinite) (h : v.magnitude < s.ends.magnitude) :
    |(s.apply v).size - v.size * 10 ^ s.power| ≤ 1 / 1000000 := by
  by_cases hs : s = one
  case pos =>
    have hnone : (one.apply v).size - v.size * 10 ^ one.power = 0 := by simp [apply, power]
    rw [hs, hnone, abs_zero]
    norm_num
  case neg =>
    have ⟨num, den, hden, hratio, happly⟩ := exists_apply_eq hv hs
    have hfinite : nearestMagnitude num den < infinityMagnitude := by
      have hfinite := isFinite_apply hv h
      rwa [happly, isFinite, magnitude_nearest, decide_eq_true_eq] at hfinite
    have hlt : (num / den : ℚ) < 2 ^ (10 : Int) := hratio ▸ size_mul_lt hs h
    rw [size_eq, happly, magnitude_nearest, ← hratio]
    exact (abs_sizeOf_nearest_sub_le hden (by norm_num) hlt hfinite).trans (by norm_num)

-- What is shown is close to the value.
theorem abs_thousandths_sub_le (hv : v.isFinite) (h : v.magnitude < s.ends.magnitude) :
    |(s.thousandths v : ℚ) / 1000 - v.size * 10 ^ s.power| ≤ 501 / 1000000 :=
  calc |(s.thousandths v : ℚ) / 1000 - v.size * 10 ^ s.power|
      ≤ |(s.thousandths v : ℚ) / 1000 - (s.apply v).size| + |(s.apply v).size - v.size * 10 ^ s.power| :=
        abs_sub_le _ _ _
    _ ≤ 1 / 2000 + 1 / 1000000 := add_le_add (abs_thousandths_sub_apply_le s v) (abs_apply_sub_le hv h)
    _ = 501 / 1000000 := by norm_num

end Scale

namespace Reading

open Text

-- A decimal number in units with a prefix, as it is written in front of the unit.
structure Shown where
  negative : Bool
  whole : List Char
  places : List Char
  scale : Scale

namespace Shown

variable {p q : Shown} {unit : String}

-- The number has three decimal places, and no zeros in front that say nothing.
structure IsDecimal (p : Shown) : Prop where
  whole  : ∀ c ∈ p.whole, isDigit c
  places : ∀ c ∈ p.places, isDigit c
  three  : p.places.length = 3
  filled : p.whole ≠ []
  plain  : p.whole.head? = some '0' → p.whole = ['0']

def text (p : Shown) (unit : String) : String :=
  String.ofList ((if p.negative then ['-'] else []) ++ p.whole ++ ['.'] ++ p.places ++ [' ']) ++ p.scale.symbol ++ unit

-- The number without its unit, and the quantity in the unit without a prefix.
def number (p : Shown) : ℚ :=
  (if p.negative then -1 else 1) * (digitsValue (p.whole ++ p.places) / 10 ^ p.places.length)

def quantity (p : Shown) : ℚ :=
  p.number / 10 ^ p.scale.power

theorem text_toList : (p.text unit).toList = (if p.negative then ['-'] else []) ++
    (p.whole ++ '.' :: (p.places ++ ' ' :: (p.scale.symbol.toList ++ unit.toList))) := by
  simp [text]

theorem symbol_inj {s t : Scale} (h : s.symbol = t.symbol) : s = t := by
  cases s <;> cases t <;> first | rfl | exact absurd h (by decide)

-- A minus sign is no digit.
theorem IsDecimal.head_ne (hp : p.IsDecimal) {rest : List Char} : (p.whole ++ rest).head? ≠ some '-' := by
  obtain ⟨c, cs, hwhole⟩ := List.exists_cons_of_ne_nil hp.filled
  have hdigit := hp.whole c (hwhole ▸ List.mem_cons_self ..)
  rw [hwhole]
  rintro ⟨⟩
  cases hdigit

-- A text can be read in one way only.
theorem text_inj (hp : p.IsDecimal) (hq : q.IsDecimal) (h : p.text unit = q.text unit) : p = q := by
  have hchars := congrArg String.toList h
  rw [text_toList, text_toList] at hchars
  have hsign : p.negative = q.negative := by
    have hhead := congrArg List.head? hchars
    cases hpn : p.negative <;> cases hqn : q.negative <;> rw [hpn, hqn] at hhead
    · exact absurd hhead hp.head_ne
    · exact absurd hhead.symm hq.head_ne
  rw [hsign] at hchars
  have hnumber := List.append_cancel_left hchars
  have hpoint (rest : List Char) : EndsDigits ('.' :: rest) := endsDigits_cons rfl rest
  have hwhole : p.whole = q.whole := by
    have hdigits := congrArg (List.takeWhile isDigit) hnumber
    rwa [takeWhile_digits hp.whole (hpoint _), takeWhile_digits hq.whole (hpoint _)] at hdigits
  rw [hwhole] at hnumber
  have hplaces := List.tail_eq_of_cons_eq (List.append_cancel_left hnumber)
  have ⟨hplaces, hrest⟩ := List.append_inj hplaces (hp.three.trans hq.three.symm)
  have hsymbol := List.append_cancel_right (List.tail_eq_of_cons_eq hrest)
  have hscale := symbol_inj (String.toList_inj.1 hsymbol)
  cases p
  cases q
  simp_all

-- A number of thousandths as it is written.
def ofThousandths (negative : Bool) (n : Nat) (scale : Scale) : Shown :=
  ⟨negative, (Nat.repr (n / 1000)).toList, (padded 3 (n % 1000)).toList, scale⟩

variable {negative : Bool} {n : Nat} {scale : Scale}

theorem length_places (n : Nat) : (padded 3 (n % 1000)).toList.length = 3 := by
  have hlt : n % 1000 < 10 ^ 3 := Nat.mod_lt n (by decide)
  exact length_padded_of_lt (by decide) hlt

theorem ofThousandths_whole : (ofThousandths negative n scale).whole = Nat.toDigits 10 (n / 1000) := by
  simp only [ofThousandths, repr_toList]

theorem ofThousandths_places : (ofThousandths negative n scale).places = (padded 3 (n % 1000)).toList := by
  simp only [ofThousandths]

theorem ofThousandths_isDecimal : (ofThousandths negative n scale).IsDecimal where
  whole := by
    rw [ofThousandths_whole]
    exact fun c => isDigit_of_mem_toDigits
  places := by
    rw [ofThousandths_places]
    exact fun c => isDigit_of_mem_padded
  three := by rw [ofThousandths_places, length_places]
  filled := by
    rw [ofThousandths_whole]
    exact Nat.toDigits_ne_nil
  plain := by
    rw [ofThousandths_whole]
    intro hzero
    by_cases hn : n / 1000 = 0
    case pos => rw [hn, Nat.toDigits_zero]
    case neg => exact absurd hzero (head?_toDigits hn)

theorem ofThousandths_number :
    (ofThousandths negative n scale).number = (if negative then -1 else 1) * (n / 1000 : ℚ) := by
  let p := ofThousandths negative n scale
  have hplaces : p.places.length = 3 := ofThousandths_isDecimal.three
  have hvalue : digitsValue (p.whole ++ p.places) = n := by
    rw [digitsValue_append, hplaces, ofThousandths_whole, ofThousandths_places, digitsValue_toDigits,
      digitsValue_padded]
    exact Nat.div_add_mod n 1000
  have hpower : (10 : ℚ) ^ 3 = 1000 := by norm_num
  rw [number, hvalue, hplaces, hpower]
  rfl

end Shown

-- What a text with a unit denotes.
def Denotes (unit text : String) (quantity : ℚ) : Prop :=
  ∃ p : Shown, p.IsDecimal ∧ p.text unit = text ∧ p.quantity = quantity

variable {v w : Double} {unit : String}

-- A finite value as it is shown.
def shown (v : Double) : Shown :=
  .ofThousandths v.isNegative ((Scale.ofValue v).thousandths v) (Scale.ofValue v)

theorem shown_isDecimal : (shown v).IsDecimal :=
  Shown.ofThousandths_isDecimal

-- A decimal of a finite double is a number of thousandths.
theorem fixed_toList {x : Double} (hx : x.isFinite) : (x.fixed 3).toList =
    (if x.isNegative then ['-'] else []) ++ ((Nat.repr (Double.scaledMagnitude 3 x / 1000)).toList ++
      '.' :: (padded 3 (Double.scaledMagnitude 3 x % 1000)).toList) := by
  have ⟨hnan, hinf⟩ := Double.isFinite_iff.1 hx
  have hten : Double.ten (3 : Nat) = 1000 := rfl
  simp only [Double.fixed, hnan, hinf, hten]
  cases x.isNegative <;> simp

theorem engineering_eq (hv : v.isFinite) (unit : String) : engineering v unit = (shown v).text unit := by
  have ⟨_, hends⟩ := Scale.mem_band hv
  have hfixed := fixed_toList (Scale.isFinite_apply hv hends)
  rw [Scale.isNegative_apply hv] at hfixed
  rw [← String.toList_inj, Shown.text_toList]
  simp only [engineering, String.toList_append, hfixed, shown, Shown.ofThousandths, Scale.thousandths]
  by_cases hneg : v.isNegative = true
  · simp [hneg]
  · simp [hneg]

-- What is shown, without the sign.
def shownSize (v : Double) : ℚ :=
  (Scale.ofValue v).thousandths v / 1000 / 10 ^ (Scale.ofValue v).power

theorem shownSize_nonneg : 0 ≤ shownSize v := by
  unfold shownSize
  positivity

theorem shown_quantity : (shown v).quantity = if v.isNegative then -shownSize v else shownSize v := by
  rw [Shown.quantity, shown, Shown.ofThousandths_number, shownSize, ← shown]
  cases v.isNegative
  · simp [shown, Shown.ofThousandths]
  · simp [shown, Shown.ofThousandths, neg_div]

-- A larger value is shown as more of the same units, or in larger ones.
theorem shownSize_mono (hv : v.isFinite) (hw : w.isFinite) (h : v.magnitude ≤ w.magnitude) :
    shownSize v ≤ shownSize w := by
  have ⟨_, hends⟩ := Scale.mem_band hv
  have ⟨hbegins, _⟩ := Scale.mem_band hw
  rcases (Scale.power_antitone hv hw h).eq_or_lt with hpower | hpower
  case inl =>
    have hscale := Scale.eq_of_power_eq hpower
    have hmono : (Scale.ofValue v).thousandths v ≤ (Scale.ofValue v).thousandths w := Scale.thousandths_mono hv hw h
    rw [shownSize, shownSize, hscale]
    gcongr
  case inr => exact Scale.thousandths_div_le hpower hends hw hbegins

theorem shownSize_eq_zero (hv : v.isFinite) (h : v.magnitude = 0) : shownSize v = 0 := by
  have hzero : (Double.zero false).isFinite ∧ (Double.zero false).magnitude = 0 ∧
      Scale.pico.thousandths (.zero false) = 0 ∧ 0 < Scale.pico.ends.magnitude := by decide +kernel
  have hscale : Scale.ofValue v = .pico := by rw [Scale.ofValue_eq hv, h, if_pos hzero.right.right.right]
  have hnone := Scale.thousandths_congr (s := .pico) hv hzero.left (h.trans hzero.right.left.symm)
  rw [shownSize, hscale, hnone, hzero.right.right.left]
  simp

-- Below zero the order of what is shown turns round as that of the values does; a value that is not negative is at
-- most a negative one only where both are zeros.
theorem shown_quantity_mono (hv : v.isFinite) (hw : w.isFinite) (h : v.value ≤ w.value) :
    (shown v).quantity ≤ (shown w).quantity := by
  have hvsize := Double.sizeOf_nonneg v.magnitude
  have hwsize := Double.sizeOf_nonneg w.magnitude
  rw [Double.value, Double.value, Double.size_eq, Double.size_eq] at h
  rw [shown_quantity, shown_quantity]
  by_cases hvn : v.isNegative = true
  case pos =>
    by_cases hwn : w.isNegative = true
    case pos =>
      rw [if_pos hvn, if_pos hwn, neg_le_neg_iff] at h ⊢
      exact shownSize_mono hw hv (Double.sizeOf_strictMono.le_iff_le.1 h)
    case neg =>
      rw [if_pos hvn, if_neg hwn]
      exact (neg_nonpos.2 shownSize_nonneg).trans shownSize_nonneg
  case neg =>
    by_cases hwn : w.isNegative = true
    case pos =>
      rw [if_neg hvn, if_pos hwn] at h ⊢
      have hvzero : Double.sizeOf v.magnitude = Double.sizeOf 0 := by rw [Double.sizeOf_zero]; linarith
      have hwzero : Double.sizeOf w.magnitude = Double.sizeOf 0 := by rw [Double.sizeOf_zero]; linarith
      rw [shownSize_eq_zero hv (Double.sizeOf_strictMono.injective hvzero),
        shownSize_eq_zero hw (Double.sizeOf_strictMono.injective hwzero), neg_zero]
    case neg =>
      rw [if_neg hvn, if_neg hwn] at h ⊢
      exact shownSize_mono hv hw (Double.sizeOf_strictMono.le_iff_le.1 h)

-- A finite value as it is shown denotes one quantity.
theorem denotes_iff (hv : v.isFinite) {q : ℚ} : Denotes unit (engineering v unit) q ↔ q = (shown v).quantity := by
  constructor
  · rintro ⟨p, hp, htext, rfl⟩
    rw [engineering_eq hv] at htext
    rw [Shown.text_inj hp shown_isDecimal htext]
  · rintro rfl
    exact ⟨shown v, shown_isDecimal, (engineering_eq hv unit).symm, rfl⟩

-- Readings keep their order when they are shown, whichever prefixes they are shown with.
theorem order_kept {a b : Double} (ha : a.isFinite) (hb : b.isFinite) (h : a.value ≤ b.value) (unit : String) :
    (∃! x, Denotes unit (engineering a unit) x) ∧ (∃! y, Denotes unit (engineering b unit) y) ∧
      ∀ x y, Denotes unit (engineering a unit) x → Denotes unit (engineering b unit) y → x ≤ y := by
  simp only [denotes_iff ha, denotes_iff hb]
  refine ⟨⟨_, rfl, fun _ h => h⟩, ⟨_, rfl, fun _ h => h⟩, ?_⟩
  rintro _ _ rfl rfl
  exact shown_quantity_mono ha hb h

-- The largest double below a nano unit is shown as a thousand pico units, which is no more than one nano unit.
theorem order_kept_across_prefixes :
    (⟨0x3e112e0be826d694⟩ : Double).isFinite ∧ Scale.nano.begins.isFinite ∧
      (⟨0x3e112e0be826d694⟩ : Double).value ≤ Scale.nano.begins.value ∧
      engineering ⟨0x3e112e0be826d694⟩ "A" = "1000.000 pA" ∧ engineering Scale.nano.begins "A" = "1.000 nA" ∧
      ∀ x y, Denotes "A" (engineering ⟨0x3e112e0be826d694⟩ "A") x →
        Denotes "A" (engineering Scale.nano.begins "A") y → x ≤ y := by
  have ha : (⟨0x3e112e0be826d694⟩ : Double).isFinite := by decide +kernel
  have hb : Scale.nano.begins.isFinite := by decide +kernel
  have hle : (⟨0x3e112e0be826d694⟩ : Double).value ≤ Scale.nano.begins.value := by decide +kernel
  refine ⟨ha, hb, hle, by decide +kernel, by decide +kernel, ?_⟩
  exact (order_kept ha hb hle "A").right.right

theorem shown_number : (shown v).number =
    (if v.isNegative then -1 else 1) * ((Scale.ofValue v).thousandths v / 1000 : ℚ) :=
  Shown.ofThousandths_number

theorem abs_shown_number : |(shown v).number| = (Scale.ofValue v).thousandths v / 1000 := by
  rw [shown_number, abs_mul, abs_of_nonneg (show (0 : ℚ) ≤ (Scale.ofValue v).thousandths v / 1000 by positivity)]
  cases v.isNegative <;> simp

-- What a decimal that shows a value has to be.
structure Shown.Renders (p : Shown) (v : Double) : Prop where
  decimal : p.IsDecimal
  scale   : p.scale = Scale.ofSize |v.value|
  close   : |p.number - v.value * 10 ^ p.scale.power| ≤ 501 / 1000000
  most    : p.scale ≠ .one → |p.number| ≤ 1000
  least   : p.scale ≠ .pico → 1 ≤ |p.number|

theorem shown_renders (hv : v.isFinite) : (shown v).Renders v where
  decimal := shown_isDecimal
  scale := Scale.ofValue_eq_ofSize hv
  close := by
    have hclose := Scale.abs_thousandths_sub_le hv (Scale.mem_band hv).right
    rw [shown_number, Double.value]
    show |_ - _ * 10 ^ (Scale.ofValue v).power| ≤ _
    by_cases hneg : v.isNegative = true
    case pos =>
      rw [if_pos hneg, if_pos hneg, neg_one_mul, neg_mul, neg_sub_neg, abs_sub_comm]
      exact hclose
    case neg =>
      rw [if_neg hneg, if_neg hneg, one_mul]
      exact hclose
  most hs := by
    have hmost : ((Scale.ofValue v).thousandths v : ℚ) ≤ 1000000 := by
      exact_mod_cast Scale.thousandths_le hs (Scale.mem_band hv).right
    rw [abs_shown_number]
    linarith
  least hs := by
    have hleast : (1000 : ℚ) ≤ (Scale.ofValue v).thousandths v := by
      exact_mod_cast Scale.le_thousandths hs hv (Scale.mem_band hv).left
    rw [abs_shown_number]
    linarith

-- The opposite of a value is shown as the same number with the other sign.
theorem shown_neg (hv : v.isFinite) : shown v.neg = { shown v with negative := !v.isNegative } := by
  have hmagnitude : v.neg.magnitude = v.magnitude := Double.magnitude_neg v
  have hfinite : v.neg.isFinite := by rwa [Double.isFinite, hmagnitude]
  have hscale : Scale.ofValue v.neg = Scale.ofValue v := by
    rw [Scale.ofValue_eq hfinite, Scale.ofValue_eq hv, hmagnitude]
  simp only [shown, Shown.ofThousandths, hscale, Scale.thousandths_congr hfinite hv hmagnitude, Double.isNegative_neg]

theorem engineering_infinity (negative : Bool) (unit : String) :
    engineering (.infinity negative) unit = (if negative then "-inf " else "inf ") ++ unit := by
  have hscale : Scale.ofValue (.infinity negative) = .one := by cases negative <;> decide +kernel
  have hfixed : (Double.infinity negative).fixed 3 = if negative then "-inf" else "inf" := by
    cases negative <;> decide +kernel
  simp only [engineering, hscale, Scale.apply, hfixed]
  cases negative <;> rfl

theorem engineering_neg (hnan : v.isNaN = false) (hneg : v.isNegative = false) :
    engineering v.neg unit = "-" ++ engineering v unit := by
  rcases Double.isFinite_or_eq_infinity hnan with hv | hv
  case inl =>
    have hfinite : v.neg.isFinite := by rwa [Double.isFinite, Double.magnitude_neg]
    rw [engineering_eq hfinite, engineering_eq hv, shown_neg hv, hneg, ← String.toList_inj, String.toList_append,
      Shown.text_toList, Shown.text_toList]
    simp [shown, Shown.ofThousandths, hneg]
  case inr =>
    rw [hneg] at hv
    rw [hv, show (Double.infinity false).neg = .infinity true by decide +kernel, engineering_infinity,
      engineering_infinity]
    simp [← String.append_assoc]

-- A reading has a decimal point in it, or the word for an infinity, and the word for a missing value has neither.
theorem engineering_ne_missing (hnan : v.isNaN = false) : engineering v unit ≠ missing := by
  have hmissing : '.' ∉ missing.toList ∧ 'i' ∉ missing.toList := by decide
  intro h
  rcases Double.isFinite_or_eq_infinity hnan with hv | hv
  case inl =>
    refine hmissing.left ?_
    rw [← h, engineering_eq hv, Shown.text_toList]
    simp
  case inr =>
    refine hmissing.right ?_
    rw [← h, hv, engineering_infinity]
    cases v.isNegative <;> simp

-- A finite reading is a decimal of three places that is close to its value, in units of its band. The sign stands in
-- front, infinities included, and only what is missing is shown by a word of its own.
theorem engineering_renders (v : Double) (unit : String) :
    (v.isFinite → ∃ p : Shown, p.Renders v ∧ engineering v unit = p.text unit) ∧
      (v.isNaN = false → v.isNegative = false → engineering v.neg unit = "-" ++ engineering v unit) ∧
      (text v unit = "null" ↔ v.isNaN) ∧
      (v.isNaN = false → text v unit = engineering v unit) := by
  have htext (hnan : v.isNaN = false) : text v unit = engineering v unit := by
    rw [text, hnan, if_neg Bool.false_ne_true]
  refine ⟨fun hv => ⟨shown v, shown_renders hv, engineering_eq hv unit⟩, engineering_neg, ⟨?_, ?_⟩, htext⟩
  · intro hnull
    by_contra hnan
    rw [Bool.not_eq_true] at hnan
    exact engineering_ne_missing hnan ((htext hnan).symm.trans hnull)
  · intro hnan
    rw [text, if_pos hnan]
    rfl

-- A quarter of a micro unit is shown in nano units, below zero with a sign in front.
theorem engineering_renders_quarter :
    (∃ p : Shown, p.Renders (.nearest false 1 4000000) ∧
      engineering (.nearest false 1 4000000) "A" = p.text "A" ∧ p.text "A" = "250.000 nA") ∧
      engineering (Double.nearest false 1 4000000).neg "A" = "-" ++ engineering (.nearest false 1 4000000) "A" ∧
      text (.nearest false 1 4000000) "A" = engineering (.nearest false 1 4000000) "A" ∧
      text .nan "A" = "null" := by
  have hfinite : (Double.nearest false 1 4000000).isFinite := by decide +kernel
  have hnan : (Double.nearest false 1 4000000).isNaN = false := by decide +kernel
  have ⟨hshown, hneg, _, htext⟩ := engineering_renders (.nearest false 1 4000000) "A"
  have ⟨p, hp, hengineering⟩ := hshown hfinite
  have hquarter : engineering (.nearest false 1 4000000) "A" = "250.000 nA" := by decide +kernel
  refine ⟨⟨p, hp, hengineering, hengineering.symm.trans hquarter⟩, hneg hnan (by decide +kernel), htext hnan, ?_⟩
  exact (engineering_renders .nan "A").right.right.left.2 (by decide +kernel)

end Reading

end StationScript
