namespace StationScript.Text

-- The code points with the Unicode property `White_Space`, as ranges with both ends.
def blankRanges : List (Nat × Nat) :=
  [(0x9, 0xD), (0x20, 0x20), (0x85, 0x85), (0xA0, 0xA0), (0x1680, 0x1680), (0x2000, 0x200A), (0x2028, 0x2029),
   (0x202F, 0x202F), (0x205F, 0x205F), (0x3000, 0x3000)]

example : (blankRanges.map fun r => r.2 + 1 - r.1).sum = 25 := by decide

def isBlank (c : Char) : Bool :=
  blankRanges.any fun r => r.1 ≤ c.toNat && c.toNat ≤ r.2

-- Core's notion covers ASCII only, and of that neither the line tabulation nor the form feed.
theorem isBlank_of_isWhitespace {c : Char} (h : c.isWhitespace) : isBlank c := by
  simp only [Char.isWhitespace, Bool.or_eq_true, decide_eq_true_eq] at h
  rcases h with ((h | h) | h) | h <;> subst h <;> decide

def trimStart (cs : List Char) : List Char :=
  cs.dropWhile isBlank

def trimEnd (cs : List Char) : List Char :=
  (cs.reverse.dropWhile isBlank).reverse

def trim (cs : List Char) : List Char :=
  trimEnd (trimStart cs)

def trimmed (s : String) : String :=
  String.ofList (trim s.toList)

-- A text that trimming leaves alone.
def IsTrimmed (cs : List Char) : Prop :=
  trim cs = cs

instance (cs : List Char) : Decidable (IsTrimmed cs) :=
  inferInstanceAs (Decidable (trim cs = cs))

theorem trimmed_toList (s : String) : (trimmed s).toList = trim s.toList := by
  simp [trimmed]

theorem trimStart_blank_append {ws cs : List Char} (h : ∀ c ∈ ws, isBlank c) :
    trimStart (ws ++ cs) = trimStart cs := by
  induction ws with
  | nil => rfl
  | cons w ws ih => simp_all [trimStart]

theorem trimEnd_append_blank {ws cs : List Char} (h : ∀ c ∈ ws, isBlank c) :
    trimEnd (cs ++ ws) = trimEnd cs := by
  simp only [trimEnd, List.reverse_append]
  congr 1
  exact trimStart_blank_append (by simpa using h)

theorem trimStart_eq_nil_iff {cs : List Char} : trimStart cs = [] ↔ ∀ c ∈ cs, isBlank c := by
  induction cs with
  | nil => simp [trimStart]
  | cons c cs ih => by_cases hc : isBlank c <;> simp_all [trimStart]

theorem trim_blank_append {ws cs : List Char} (h : ∀ c ∈ ws, isBlank c) :
    trim (ws ++ cs) = trim cs := by
  simp [trim, trimStart_blank_append h]

theorem trimStart_append_of_exists {cs ds : List Char} (h : ∃ c ∈ cs, !isBlank c) :
    trimStart (cs ++ ds) = trimStart cs ++ ds := by
  induction cs with
  | nil => simp at h
  | cons c cs ih =>
    by_cases hc : isBlank c
    · have : ∃ d ∈ cs, !isBlank d := by simpa [hc] using h
      simpa [trimStart, hc] using ih this
    · simp [trimStart, hc]

theorem trim_append_blank {ws cs : List Char} (h : ∀ c ∈ ws, isBlank c) :
    trim (cs ++ ws) = trim cs := by
  by_cases hc : ∃ c ∈ cs, !isBlank c
  · simp [trim, trimStart_append_of_exists hc, trimEnd_append_blank h]
  · have hcs : ∀ c ∈ cs, isBlank c := by simpa using hc
    have : ∀ c ∈ cs ++ ws, isBlank c := by
      intro c hm
      exact (List.mem_append.1 hm).elim (hcs c) (h c)
    simp [trim, trimStart_eq_nil_iff.2 this, trimStart_eq_nil_iff.2 hcs]

theorem trimStart_trimStart (cs : List Char) : trimStart (trimStart cs) = trimStart cs := by
  induction cs with
  | nil => rfl
  | cons c cs ih =>
    by_cases hc : isBlank c
    · simpa [trimStart, hc] using ih
    · simp [trimStart, hc]

theorem trimEnd_trimEnd (cs : List Char) : trimEnd (trimEnd cs) = trimEnd cs := by
  have := trimStart_trimStart cs.reverse
  simpa [trimEnd, trimStart] using this

-- What is left of a text after trimming its end starts as the text does.
theorem trimEnd_cons_of_not_blank {c : Char} {cs : List Char} (h : isBlank c = false) :
    trimEnd (c :: cs) = c :: trimEnd cs := by
  have : ∃ d ∈ [c], !isBlank d := ⟨c, by simp, by simp [h]⟩
  by_cases hcs : ∃ d ∈ cs.reverse, !isBlank d
  · have : trimStart (cs.reverse ++ [c]) = _ := trimStart_append_of_exists hcs
    simp only [trimStart] at this
    simp [trimEnd, this]
  · have hcs : ∀ d ∈ cs.reverse, isBlank d := by simpa using hcs
    have h₁ : trimStart (cs.reverse ++ [c]) = _ := trimStart_blank_append hcs
    have h₂ := trimStart_eq_nil_iff.2 hcs
    simp only [trimStart] at h₁ h₂
    simp [trimEnd, h₁, h₂, h]

theorem trimStart_trimEnd_of_head {cs : List Char} (h : trimStart cs = cs) :
    trimStart (trimEnd cs) = trimEnd cs := by
  cases cs with
  | nil => rfl
  | cons c cs =>
    by_cases hc : isBlank c
    · have : (trimStart (c :: cs)).length ≤ cs.length := by
        simp only [trimStart, List.dropWhile_cons, hc, if_true]
        exact (List.dropWhile_sublist _).length_le
      rw [h, List.length_cons] at this
      omega
    · simp [trimEnd_cons_of_not_blank (by simpa using hc), trimStart, hc]

theorem trim_trim (cs : List Char) : trim (trim cs) = trim cs := by
  have h := trimStart_trimEnd_of_head (trimStart_trimStart cs)
  simp only [trim, h, trimEnd_trimEnd]

theorem isTrimmed_trim (cs : List Char) : IsTrimmed (trim cs) :=
  trim_trim cs

-- Trimming takes white space off both ends, and nothing else.
theorem exists_eq_append_trim (cs : List Char) :
    ∃ left right, (∀ c ∈ left, isBlank c) ∧ (∀ c ∈ right, isBlank c) ∧ cs = left ++ trim cs ++ right := by
  have hstart : cs = cs.takeWhile isBlank ++ trimStart cs := List.takeWhile_append_dropWhile.symm
  have hend : trimStart cs = trim cs ++ ((trimStart cs).reverse.takeWhile isBlank).reverse := by
    have := congrArg List.reverse (List.takeWhile_append_dropWhile (p := isBlank) (l := (trimStart cs).reverse))
    rw [List.reverse_append, List.reverse_reverse] at this
    exact this.symm
  have hall {ds : List Char} : ∀ c ∈ ds.takeWhile isBlank, isBlank c := List.all_eq_true.1 List.all_takeWhile
  refine ⟨cs.takeWhile isBlank, ((trimStart cs).reverse.takeWhile isBlank).reverse, hall,
    fun c hc => hall c (List.mem_reverse.1 hc), ?_⟩
  rw [List.append_assoc, ← hend, ← hstart]

theorem isInfix_trim (cs : List Char) : trim cs <:+: cs := by
  have ⟨left, right, _, _, heq⟩ := exists_eq_append_trim cs
  exact ⟨left, right, heq.symm⟩

-- What is no white space is not lost.
theorem filter_trim (cs : List Char) : (trim cs).filter (!isBlank ·) = cs.filter (!isBlank ·) := by
  have ⟨left, right, hleft, hright, heq⟩ := exists_eq_append_trim cs
  have hnone {ws : List Char} (h : ∀ c ∈ ws, isBlank c) : ws.filter (!isBlank ·) = [] :=
    List.filter_eq_nil_iff.2 fun c hc => by simp [h c hc]
  conv => rhs; rw [heq, List.filter_append, List.filter_append, hnone hleft, hnone hright, List.nil_append,
    List.append_nil]

-- Trimming only takes characters away.
theorem mem_of_mem_trim {c : Char} {cs : List Char} (h : c ∈ trim cs) : c ∈ cs :=
  (isInfix_trim cs).subset h

end StationScript.Text
