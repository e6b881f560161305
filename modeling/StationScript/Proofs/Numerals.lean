import Mathlib.Algebra.Ring.Nat
import Mathlib.Data.List.Induction
import StationScript.Text.Blank
import StationScript.Text.Numeral
import StationScript.Text.Padding

namespace StationScript.Text

variable {s : String} {cs rest : List Char} {c : Char} {width n limit : Nat}

theorem isDigit_iff_isDigit : isDigit c ↔ c.isDigit := by
  simp only [isDigit, Bool.and_eq_true, decide_eq_true_eq]
  exact Iff.of_eq (by simp [Char.isDigit, Char.le_def])

theorem isBlank_of_isDigit (h : isDigit c) : isBlank c = false := by
  simp only [isDigit, Bool.and_eq_true, decide_eq_true_eq, Char.le_def, UInt32.le_iff_toNat_le] at h
  have hlow : 48 ≤ c.toNat := h.left
  have hhigh : c.toNat ≤ 57 := h.right
  simp [isBlank, blankRanges]
  omega

theorem digitsValue_eq_ofDigitChars (cs : List Char) : digitsValue cs = Nat.ofDigitChars 10 cs 0 :=
  Nat.ofDigitChars_eq_foldl.symm

-- What the digits in front spell counts for as many powers of ten as there are digits behind them.
theorem digitsValue_append (cs ds : List Char) :
    digitsValue (cs ++ ds) = 10 ^ ds.length * digitsValue cs + digitsValue ds := by
  simp only [digitsValue_eq_ofDigitChars, Nat.ofDigitChars_append]
  exact Nat.ofDigitChars_eq_ofDigitChars_zero

theorem repr_toList (n : Nat) : (Nat.repr n).toList = Nat.toDigits 10 n := by
  rw [Nat.repr_eq_ofList_toDigits, String.toList_ofList]

theorem isDigit_of_mem_toDigits (h : c ∈ Nat.toDigits 10 n) : isDigit c :=
  isDigit_iff_isDigit.2 (Nat.isDigit_of_mem_toDigits (by decide) (by decide) h)

theorem digitsValue_toDigits (n : Nat) : digitsValue (Nat.toDigits 10 n) = n := by
  rw [digitsValue_eq_ofDigitChars, Nat.ofDigitChars_ten_toDigits]

-- No number but zero is written with a zero in front.
theorem head?_toDigits (h : n ≠ 0) : (Nat.toDigits 10 n).head? ≠ some '0' := by
  induction n using Nat.strongRecOn
  case ind n ih =>
    by_cases hn : n < 10
    case pos => simp [Nat.toDigits_of_lt_base hn, h]
    case neg =>
      have hquotient : n / 10 ≠ 0 := by omega
      have hhead := ih (n / 10) (by omega) hquotient
      obtain ⟨c, cs, hcs⟩ := List.exists_cons_of_ne_nil (Nat.toDigits_ne_nil (n := n / 10) (b := 10))
      rw [Nat.toDigits_of_base_le (by decide) (Nat.not_lt.1 hn), hcs]
      rwa [hcs] at hhead

theorem padded_toList (width n : Nat) :
    (padded width n).toList =
      List.replicate (width - (Nat.toDigits 10 n).length) '0' ++ Nat.toDigits 10 n := by
  simp only [padded, String.toList_append, String.toList_ofList, repr_toList, ← String.length_toList]

theorem isDigit_of_mem_padded (h : c ∈ (padded width n).toList) : isDigit c := by
  rw [padded_toList] at h
  cases List.mem_append.1 h
  case inl h => exact (List.mem_replicate.1 h).right ▸ rfl
  case inr h => exact isDigit_of_mem_toDigits h

theorem exists_padded_eq_cons (width n : Nat) : ∃ c cs, (padded width n).toList = c :: cs ∧ isDigit c := by
  have hne : (padded width n).toList ≠ [] := by simp [padded_toList, Nat.toDigits_ne_nil]
  obtain ⟨c, cs, hcs⟩ := List.exists_cons_of_ne_nil hne
  exact ⟨c, cs, hcs, isDigit_of_mem_padded (hcs ▸ List.mem_cons_self ..)⟩

theorem digitsValue_padded (width n : Nat) : digitsValue (padded width n).toList = n := by
  have hzeros : digitsValue (List.replicate (width - (Nat.toDigits 10 n).length) '0') = 0 := by
    rw [digitsValue_eq_ofDigitChars, Nat.ofDigitChars_replicate_zero, Nat.mul_zero]
  rw [padded_toList, digitsValue_append, hzeros, digitsValue_toDigits, Nat.mul_zero, Nat.zero_add]

-- A number that is small enough fills the width exactly.
theorem length_padded_of_lt (hwidth : 0 < width) (h : n < 10 ^ width) : (padded width n).toList.length = width := by
  have hle := (Nat.length_toDigits_le_iff (by decide) hwidth).2 h
  rw [padded_toList, List.length_append, List.length_replicate]
  omega

-- What follows a run of digits where the run is over.
def EndsDigits (rest : List Char) : Prop :=
  ∀ c, rest.head? = some c → isDigit c = false

theorem endsDigits_cons (h : isDigit c = false) (rest : List Char) : EndsDigits (c :: rest) := by
  intro d hd
  cases hd
  exact h

theorem takeWhile_digits (hcs : ∀ c ∈ cs, isDigit c) (hrest : EndsDigits rest) :
    (cs ++ rest).takeWhile isDigit = cs := by
  rw [List.takeWhile_append_of_pos hcs]
  cases rest
  case nil           => simp
  case cons r behind => rw [List.takeWhile_cons_of_neg (by simp [hrest r rfl]), List.append_nil]

theorem dropWhile_digits (hcs : ∀ c ∈ cs, isDigit c) (hrest : EndsDigits rest) :
    (cs ++ rest).dropWhile isDigit = rest := by
  rw [List.dropWhile_append_of_pos hcs]
  cases rest
  case nil           => rfl
  case cons r behind => exact List.dropWhile_cons_of_neg (by simp [hrest r rfl])

theorem digitValue_lt_of_isDigit (h : isDigit c) : digitValue c < 10 := by
  simp only [isDigit, Bool.and_eq_true, decide_eq_true_eq, Char.le_def, UInt32.le_iff_toNat_le] at h
  have hhigh : c.toNat ≤ 57 := h.right
  exact Nat.lt_succ_of_le (Nat.sub_le_sub_right hhigh 48)

theorem digitChar_digitValue (h : isDigit c) : Nat.digitChar (digitValue c) = c := by
  have hlt := digitValue_lt_of_isDigit h
  simp only [isDigit, Bool.and_eq_true, decide_eq_true_eq, Char.le_def, UInt32.le_iff_toNat_le] at h
  have hlow : 48 ≤ c.toNat := h.left
  rw [← Char.toNat_inj, Nat.toNat_digitChar_of_lt_ten hlt]
  exact Nat.add_sub_of_le hlow

-- A row of digits is how a number is written, unless there is a needless zero in front.
theorem toDigits_digitsValue (hne : cs ≠ []) (hcs : ∀ c ∈ cs, isDigit c)
    (hhead : cs.head? = some '0' → cs.length = 1) : Nat.toDigits 10 (digitsValue cs) = cs := by
  induction cs using List.reverseRecOn
  case nil => exact absurd rfl hne
  case append_singleton ds c ih =>
    have hlast : isDigit c := hcs c (by simp)
    have hlt := digitValue_lt_of_isDigit hlast
    have hsingle : Nat.toDigits 10 (digitValue c) = [c] := by
      rw [Nat.toDigits_of_lt_base hlt, digitChar_digitValue hlast]
    have hvalue : digitsValue [c] = digitValue c := Nat.zero_add _
    by_cases hds : ds = []
    case pos => rw [hds, List.nil_append, hvalue, hsingle]
    case neg =>
      have hstart : ds.head? ≠ some '0' := by
        intro hzero
        have hlength := hhead (by rw [List.head?_append, hzero]; rfl)
        rw [List.length_append] at hlength
        exact hds (List.length_eq_zero_iff.1 (Nat.succ.inj hlength))
      have hbefore := ih hds (fun c hc => hcs c (by simp [hc])) fun hzero => absurd hzero hstart
      have hpos : 0 < digitsValue ds := by
        refine Nat.pos_of_ne_zero fun hzero => hstart ?_
        rw [← hbefore, hzero]
        rfl
      have hsum : digitsValue (ds ++ [c]) = 10 * digitsValue ds + digitValue c := by
        rw [digitsValue_append, hvalue]
        rfl
      rw [hsum, ← Nat.toDigits_append_toDigits (by decide) hpos hlt, hbefore, hsingle]

-- Decimal digits, one at least, with any number of zeros in front. One plus sign may stand before them all.
def Spells (s : String) (n : Nat) : Prop :=
  ∃ digits : List Char, (s.toList = digits ∨ s.toList = '+' :: digits) ∧ digits ≠ [] ∧ (∀ c ∈ digits, c.isDigit) ∧
    Nat.ofDigitChars 10 digits 0 = n

theorem digits?_eq_some_iff_isDigit : digits? limit cs = some n ↔
    cs ≠ [] ∧ (∀ c ∈ cs, c.isDigit) ∧ Nat.ofDigitChars 10 cs 0 = n ∧ n < limit := by
  simp only [digits?_eq_some_iff, isDigit_iff_isDigit, digitsValue_eq_ofDigitChars]

theorem natural?_of_plus (h : s.toList = '+' :: cs) : natural? s = digits? wordLimit cs := by
  simp [natural?, h]

theorem natural?_of_no_plus (h : s.toList.head? ≠ some '+') : natural? s = digits? wordLimit s.toList := by
  unfold natural?
  split
  case h_1 cs hcs => exact absurd (by rw [hcs]; rfl) h
  case h_2        => rfl

-- A plus sign is no digit.
theorem head?_ne_plus (h : ∀ c ∈ cs, c.isDigit) : cs.head? ≠ some '+' := by
  intro hplus
  cases h '+' (List.mem_of_mem_head? hplus)

theorem natural?_eq_some_iff : natural? s = some n ↔ Spells s n ∧ n < 2 ^ 64 := by
  constructor
  · intro h
    by_cases hplus : s.toList.head? = some '+'
    case pos =>
      have ⟨cs, hcs⟩ := List.head?_eq_some_iff.1 hplus
      rw [natural?_of_plus hcs] at h
      have ⟨hne, hdigits, hvalue, hlt⟩ := digits?_eq_some_iff_isDigit.1 h
      exact ⟨⟨cs, .inr hcs, hne, hdigits, hvalue⟩, hlt⟩
    case neg =>
      rw [natural?_of_no_plus hplus] at h
      have ⟨hne, hdigits, hvalue, hlt⟩ := digits?_eq_some_iff_isDigit.1 h
      exact ⟨⟨_, .inl rfl, hne, hdigits, hvalue⟩, hlt⟩
  · rintro ⟨⟨digits, htext | htext, hne, hdigits, hvalue⟩, hlt⟩
    · rw [natural?_of_no_plus (htext ▸ head?_ne_plus hdigits), htext]
      exact digits?_eq_some_iff_isDigit.2 ⟨hne, hdigits, hvalue, hlt⟩
    · rw [natural?_of_plus htext]
      exact digits?_eq_some_iff_isDigit.2 ⟨hne, hdigits, hvalue, hlt⟩

theorem natural?_eq_none_iff : natural? s = none ↔ ¬∃ n, Spells s n ∧ n < 2 ^ 64 := by
  simp only [Option.eq_none_iff_forall_ne_some, ne_eq, natural?_eq_some_iff, not_exists]

theorem Spells.unique {m : Nat} (hm : Spells s m) (hn : Spells s n) : m = n := by
  have ⟨cs, hcs, _, hdigits, hm⟩ := hm
  have ⟨ds, hds, _, hdigits', hn⟩ := hn
  have heq : cs = ds := by
    rcases hcs with hcs | hcs <;> rcases hds with hds | hds <;> rw [hcs] at hds
    · exact hds
    · exact absurd (by rw [hds]; rfl) (head?_ne_plus hdigits)
    · exact absurd (by rw [← hds]; rfl) (head?_ne_plus hdigits')
    · exact (List.cons.inj hds).right
  rw [← hm, heq, hn]

theorem spells_repr (n : Nat) : Spells (Nat.repr n) n :=
  ⟨Nat.toDigits 10 n, .inl (repr_toList n), Nat.toDigits_ne_nil,
    fun _ => Nat.isDigit_of_mem_toDigits (by decide) (by decide), Nat.ofDigitChars_ten_toDigits⟩

end StationScript.Text
