namespace StationScript.Text

-- The part in front of the first mark, and the parts after it.
def splitHead (mark : Char) : List Char → List Char × List (List Char)
  | [] => ([], [])
  | c :: cs =>
    let (part, parts) := splitHead mark cs
    if c = mark then ([], part :: parts) else (c :: part, parts)

-- The parts of a text between its marks: one more than there are marks.
def split (mark : Char) (cs : List Char) : List (List Char) :=
  (splitHead mark cs).1 :: (splitHead mark cs).2

theorem splitHead_append_mark {mark : Char} {cs ds : List Char} (h : mark ∉ cs) :
    splitHead mark (cs ++ mark :: ds) = (cs, split mark ds) := by
  induction cs with
  | nil => simp [splitHead, split]
  | cons c cs ih =>
    simp only [List.mem_cons, not_or] at h
    simp [splitHead, ih h.2, Ne.symm h.1]

theorem splitHead_of_not_mem {mark : Char} {cs : List Char} (h : mark ∉ cs) :
    splitHead mark cs = (cs, []) := by
  induction cs with
  | nil => rfl
  | cons c cs ih =>
    simp only [List.mem_cons, not_or] at h
    simp [splitHead, ih h.2, Ne.symm h.1]

theorem split_append_mark {mark : Char} {cs ds : List Char} (h : mark ∉ cs) :
    split mark (cs ++ mark :: ds) = cs :: split mark ds := by
  simp [split, splitHead_append_mark h]

theorem split_of_not_mem {mark : Char} {cs : List Char} (h : mark ∉ cs) : split mark cs = [cs] := by
  simp [split, splitHead_of_not_mem h]

-- A text is one part, or a part and a mark in front of another text.
@[elab_as_elim]
theorem byParts (mark : Char) {motive : List Char → Prop} (single : ∀ p, mark ∉ p → motive p)
    (step : ∀ p cs, mark ∉ p → motive cs → motive (p ++ mark :: cs)) (cs : List Char) : motive cs := by
  have hbehind : ∀ p, mark ∉ p → motive (p ++ cs) := by
    induction cs with
    | nil => simpa using single
    | cons c cs ih =>
      intro p hp
      by_cases hc : c = mark
      · exact hc ▸ step p cs hp (ih [] List.not_mem_nil)
      · have hlonger := ih (p ++ [c]) (by simp [hp, Ne.symm hc])
        rwa [List.append_assoc] at hlonger
  exact hbehind [] List.not_mem_nil

-- A mark anywhere splits the parts in front of it from those behind it.
theorem split_append (mark : Char) (cs ds : List Char) :
    split mark (cs ++ mark :: ds) = split mark cs ++ split mark ds := by
  induction cs using byParts mark with
  | single p hp => rw [split_append_mark hp, split_of_not_mem hp, List.singleton_append]
  | step p cs hp ih =>
    rw [List.append_assoc, List.cons_append, split_append_mark hp, split_append_mark hp, ih, List.cons_append]

-- Splitting loses the marks and nothing else.
theorem flatten_split (mark : Char) (cs : List Char) : (split mark cs).flatten = cs.filter (· != mark) := by
  have hpart {p : List Char} (hp : mark ∉ p) : p.filter (· != mark) = p :=
    List.filter_eq_self.2 fun c hc => bne_iff_ne.2 fun heq => hp (heq ▸ hc)
  induction cs using byParts mark with
  | single p hp => simp [split_of_not_mem hp, hpart hp]
  | step p cs hp ih => simp [split_append_mark hp, hpart hp, ih]

theorem isInfix_of_mem_split {mark : Char} {cs p : List Char} (h : p ∈ split mark cs) : p <:+: cs := by
  induction cs using byParts mark with
  | single q hq =>
    rw [split_of_not_mem hq, List.mem_singleton] at h
    exact h ▸ List.infix_rfl
  | step q cs hq ih =>
    rw [split_append_mark hq, List.mem_cons] at h
    rcases h with rfl | h
    · exact (List.prefix_append ..).isInfix
    · exact (ih h).trans ((List.suffix_cons ..).trans (List.suffix_append ..)).isInfix

theorem not_mem_of_mem_split {mark : Char} {cs p : List Char} (h : p ∈ split mark cs) : mark ∉ p := by
  induction cs using byParts mark with
  | single q hq =>
    rw [split_of_not_mem hq, List.mem_singleton] at h
    exact h ▸ hq
  | step q cs hq ih =>
    rw [split_append_mark hq, List.mem_cons] at h
    rcases h with rfl | h
    · exact hq
    · exact ih h

theorem split_eq_splitOn (mark : Char) (cs : List Char) : split mark cs = cs.splitOn mark := by
  induction cs using byParts mark with
  | single p hp => rw [split_of_not_mem hp, List.splitOn_eq_singleton hp]
  | step p cs hp ih =>
    have hpart : ∀ c ∈ p, (c == mark) = false := fun c hc => beq_false_of_ne fun heq => hp (heq ▸ hc)
    rw [split_append_mark hp, ih, List.splitOn, List.splitOn,
      List.splitOnP_append_cons_of_forall_mem hpart mark (beq_self_eq_true mark)]

-- The parts of a text are those that are put together with the mark between them.
theorem split_eq_iff {mark : Char} {cs : List Char} {parts : List (List Char)} :
    split mark cs = parts ↔ parts ≠ [] ∧ (∀ p ∈ parts, mark ∉ p) ∧ cs = [mark].intercalate parts := by
  constructor
  · rintro rfl
    refine ⟨List.cons_ne_nil _ _, fun p hp => not_mem_of_mem_split hp, ?_⟩
    rw [split_eq_splitOn, List.intercalate_splitOn]
  · rintro ⟨hne, hparts, rfl⟩
    rw [split_eq_splitOn, List.splitOn_intercalate mark hparts hne]

end StationScript.Text
