namespace StationScript.Rounding

-- The integer nearest to `num / den`; of two that are equally near, the even one.
def halfEven (num den : Nat) : Nat :=
  let floor := num / den
  let twice := 2 * (num % den)
  if twice < den then floor
  else if den < twice then floor + 1
  else floor + floor % 2

-- Twice the result times the divisor is at most one divisor away from twice the dividend.
theorem halfEven_le {num den : Nat} (h : 0 < den) : 2 * (den * halfEven num den) ≤ 2 * num + den := by
  have hd := Nat.div_add_mod num den
  have hm := Nat.mod_lt num h
  have h2 : num / den % 2 < 2 := Nat.mod_lt _ (by decide)
  simp only [halfEven]
  split
  · omega
  · split
    · rw [Nat.mul_add]; omega
    · rcases Nat.lt_succ_iff_lt_or_eq.1 h2 with h0 | h1
      · have : num / den % 2 = 0 := by omega
        rw [this, Nat.add_zero]; omega
      · rw [h1, Nat.mul_add]; omega

theorem le_halfEven {num den : Nat} (h : 0 < den) : 2 * num ≤ 2 * (den * halfEven num den) + den := by
  have hd := Nat.div_add_mod num den
  have hm := Nat.mod_lt num h
  simp only [halfEven]
  split
  · omega
  · split
    · rw [Nat.mul_add]; omega
    · rw [Nat.mul_add]; omega

theorem halfEven_mul_right (n : Nat) {den : Nat} (h : 0 < den) : halfEven (n * den) den = n := by
  simp [halfEven, Nat.mul_div_cancel _ h, h]

end StationScript.Rounding
