import StationScript.Command

namespace StationScript

open Text

namespace Command

variable {cs ds ws line code comment : List Char} {c : Char}

-- What starts a comment.
def marker : List Char :=
  ['/', '/']

-- A text in which no comment starts.
def Uncommented (cs : List Char) : Prop :=
  ¬marker <:+: cs

instance (cs : List Char) : Decidable (Uncommented cs) :=
  inferInstanceAs (Decidable (¬marker <:+: cs))

theorem uncommented_nil : Uncommented [] := by
  decide

theorem uncommented_cons : Uncommented (c :: cs) ↔ ¬marker <+: c :: cs ∧ Uncommented cs := by
  rw [Uncommented, List.infix_cons_iff, not_or]
  rfl

theorem uncommented_of_not_mem (h : '/' ∉ cs) : Uncommented cs :=
  fun hmarker => h (hmarker.subset (List.mem_cons_self ..))

theorem Uncommented.of_isInfix (h : Uncommented cs) (hd : ds <:+: cs) : Uncommented ds :=
  fun hmarker => h (hmarker.trans hd)

-- A character that is no slash keeps two texts apart.
theorem uncommented_append_cons (hc : c ≠ '/') (hcs : Uncommented cs) (hds : Uncommented ds) :
    Uncommented (cs ++ c :: ds) := by
  induction cs
  case nil =>
    exact uncommented_cons.2 ⟨fun hmarker => hc (List.cons_prefix_cons.1 hmarker).left.symm, hds⟩
  case cons a rest ih =>
    have ⟨ha, hrest⟩ := uncommented_cons.1 hcs
    refine uncommented_cons.2 ⟨fun hmarker => ?_, ih hrest⟩
    cases rest
    case nil => simp [marker, hc.symm] at hmarker
    case cons b rest => exact ha (by simpa [marker] using hmarker)

theorem not_mem_of_blank (hws : ∀ c ∈ ws, isBlank c) (hc : isBlank c = false) : c ∉ ws :=
  fun hm => absurd (hws c hm) (by simp [hc])

theorem Uncommented.blank_append (h : Uncommented cs) (hws : ∀ c ∈ ws, isBlank c) : Uncommented (ws ++ cs) := by
  induction ws
  case nil => exact h
  case cons w rest ih =>
    have hslash : '/' ∉ w :: rest := not_mem_of_blank hws (by decide)
    have hrest := ih (List.forall_mem_cons.1 hws).right
    exact uncommented_append_cons (List.ne_of_not_mem_cons hslash).symm uncommented_nil hrest

theorem Uncommented.append_blank (h : Uncommented cs) (hws : ∀ c ∈ ws, isBlank c) : Uncommented (cs ++ ws) := by
  cases ws
  case nil => rwa [List.append_nil]
  case cons w rest =>
    have hslash : '/' ∉ w :: rest := not_mem_of_blank hws (by decide)
    have hrest := uncommented_of_not_mem (List.not_mem_of_not_mem_cons hslash)
    exact uncommented_append_cons (List.ne_of_not_mem_cons hslash).symm h hrest

theorem Uncommented.concat_slash (h : Uncommented cs) (hlast : cs.getLast? ≠ some '/') :
    Uncommented (cs ++ ['/']) := by
  rcases List.eq_nil_or_concat cs with rfl | ⟨init, c, rfl⟩
  · decide
  · rw [List.concat_eq_append, List.append_assoc]
    have hc : c ≠ '/' := fun heq => hlast (by simp [heq])
    exact uncommented_append_cons hc (h.of_isInfix ⟨[], [c], by simp⟩) (by decide)

-- The part of a line in front of the first comment marker, or all of it where there is none.
inductive CodeOf : (line code : List Char) → Prop
  | plain {line : List Char} (h : Uncommented line) : CodeOf line line
  -- The marker is the first one: not even its first character belongs to another one.
  | commented {code : List Char} (comment : List Char) (h : Uncommented (code ++ ['/'])) :
    CodeOf (code ++ marker ++ comment) code

theorem beforeComment_cons (h : ¬marker <+: c :: cs) : beforeComment (c :: cs) = c :: beforeComment cs := by
  rw [beforeComment]
  rintro rest rfl rfl
  exact h ⟨rest, rfl⟩

theorem codeOf_beforeComment (line : List Char) : CodeOf line (beforeComment line) := by
  fun_induction beforeComment line
  case case1 => exact .plain uncommented_nil
  case case2 rest => exact @CodeOf.commented [] rest (by decide)
  case case3 c cs hmarker ih =>
    have hfirst : ¬marker <+: c :: cs := by
      rintro ⟨rest, hrest⟩
      cases hrest
      exact hmarker rest rfl rfl
    generalize beforeComment cs = code at ih
    cases ih
    case plain h => exact .plain (uncommented_cons.2 ⟨hfirst, h⟩)
    case commented comment h =>
      refine @CodeOf.commented (c :: code) comment (uncommented_cons.2 ⟨fun hmarker => hfirst ?_, h⟩)
      exact hmarker.trans ⟨'/' :: comment, by simp [marker]⟩

theorem beforeComment_of_codeOf (h : CodeOf line code) : beforeComment line = code := by
  cases h
  case plain h =>
    induction line
    case nil => rfl
    case cons c cs ih =>
      have ⟨hfirst, hrest⟩ := uncommented_cons.1 h
      rw [beforeComment_cons hfirst, ih hrest]
  case commented comment h =>
    induction code
    case nil => rfl
    case cons c cs ih =>
      have ⟨hfirst, hrest⟩ := uncommented_cons.1 h
      have hmarker : ¬marker <+: c :: (cs ++ marker ++ comment) := by
        cases cs <;> simpa [marker] using hfirst
      rw [List.cons_append, List.cons_append, beforeComment_cons hmarker, ih hrest]

theorem beforeComment_of_uncommented (h : Uncommented cs) : beforeComment cs = cs :=
  beforeComment_of_codeOf (.plain h)

theorem beforeComment_comment (h : Uncommented (code ++ ['/'])) (comment : List Char) :
    beforeComment (code ++ marker ++ comment) = code :=
  beforeComment_of_codeOf (.commented comment h)

theorem uncommented_beforeComment (line : List Char) : Uncommented (beforeComment line) := by
  have h := codeOf_beforeComment line
  generalize beforeComment line = code at h
  cases h
  case plain h => exact h
  case commented h => exact h.of_isInfix (List.prefix_append ..).isInfix

-- Behind a comment marker nothing counts.
theorem beforeComment_append_of_commented (h : ¬Uncommented cs) (ds : List Char) :
    beforeComment (cs ++ ds) = beforeComment cs := by
  have hcode := codeOf_beforeComment cs
  generalize beforeComment cs = code at hcode
  cases hcode
  case plain hcs => exact absurd hcs h
  case commented comment hcode =>
    rw [List.append_assoc]
    exact beforeComment_comment hcode (comment ++ ds)

theorem beforeComment_append_cons (hcs : Uncommented cs) (hc : c ≠ '/') (ds : List Char) :
    beforeComment (cs ++ c :: ds) = cs ++ c :: beforeComment ds := by
  apply beforeComment_of_codeOf
  have hds := codeOf_beforeComment ds
  generalize beforeComment ds = code at hds
  cases hds
  case plain h => exact .plain (uncommented_append_cons hc hcs h)
  case commented comment h =>
    have hall : Uncommented ((cs ++ c :: code) ++ ['/']) := by
      rw [List.append_assoc, List.cons_append]
      exact uncommented_append_cons hc hcs h
    simpa using CodeOf.commented comment hall

theorem beforeComment_blank_append (hws : ∀ c ∈ ws, isBlank c) (cs : List Char) :
    beforeComment (ws ++ cs) = ws ++ beforeComment cs := by
  induction ws
  case nil => rfl
  case cons w rest ih =>
    have hslash : '/' ∉ w :: rest := not_mem_of_blank hws (by decide)
    have hw := beforeComment_append_cons uncommented_nil (List.ne_of_not_mem_cons hslash).symm (rest ++ cs)
    rw [ih (List.forall_mem_cons.1 hws).right] at hw
    exact hw

theorem fields_append (cs ds : List Char) : fields (cs ++ '^' :: ds) = fields cs ++ fields ds := by
  rw [fields, split_append, List.map_append, List.filter_append]
  rfl

-- The one field of a text without separators, or none.
theorem fields_of_not_mem (h : '^' ∉ cs) : fields cs = [trim cs].filter (!·.isEmpty) := by
  rw [fields, split_of_not_mem h]
  rfl

theorem fields_blank_append (h : ∀ c ∈ ws, isBlank c) (cs : List Char) : fields (ws ++ cs) = fields cs := by
  have hws : '^' ∉ ws := not_mem_of_blank h (by decide)
  have hpart {p : List Char} (hp : '^' ∉ p) : fields (ws ++ p) = fields p := by
    rw [fields_of_not_mem (by simp [hws, hp]), fields_of_not_mem hp, trim_blank_append h]
  induction cs using byParts '^'
  case single p hp => exact hpart hp
  case step p cs hp _ => rw [← List.append_assoc, fields_append, fields_append, hpart hp]

theorem fields_append_blank (h : ∀ c ∈ ws, isBlank c) (cs : List Char) : fields (cs ++ ws) = fields cs := by
  have hws : '^' ∉ ws := not_mem_of_blank h (by decide)
  induction cs using byParts '^'
  case single p hp =>
    rw [fields_of_not_mem (by simp [hws, hp]), fields_of_not_mem hp, trim_append_blank h]
  case step p cs hp ih => rw [List.append_assoc, List.cons_append, fields_append, fields_append, ih]

-- White space around a text does not count, and in front of fields or behind them neither.
theorem fields_trim (cs : List Char) : fields (trim cs) = fields cs := by
  have ⟨left, right, hleft, hright, heq⟩ := exists_eq_append_trim cs
  conv => rhs; rw [heq, fields_append_blank hright, fields_blank_append hleft]

-- A text that can stand as a field of a line.
structure IsField (f : List Char) : Prop where
  ne_nil      : f ≠ []
  trimmed     : IsTrimmed f
  caret       : '^' ∉ f
  uncommented : Uncommented f

instance (f : List Char) : Decidable (IsField f) :=
  decidable_of_iff (f ≠ [] ∧ IsTrimmed f ∧ '^' ∉ f ∧ Uncommented f)
    ⟨fun ⟨h₁, h₂, h₃, h₄⟩ => ⟨h₁, h₂, h₃, h₄⟩, fun ⟨h₁, h₂, h₃, h₄⟩ => ⟨h₁, h₂, h₃, h₄⟩⟩

theorem fields_of_isField {f : List Char} (h : IsField f) : fields f = [f] := by
  rw [fields_of_not_mem h.caret, h.trimmed]
  simp [h.ne_nil]

theorem mem_fields {f : List Char} (h : f ∈ fields cs) : ∃ p ∈ split '^' cs, f = trim p ∧ f ≠ [] := by
  have ⟨hf, hne⟩ := List.mem_filter.1 h
  have ⟨p, hp, heq⟩ := List.mem_map.1 hf
  exact ⟨p, hp, heq.symm, by simpa using hne⟩

-- The fields of a text without comments are such.
theorem isField_of_mem {f : List Char} (hcs : Uncommented cs) (h : f ∈ fields cs) : IsField f := by
  have ⟨p, hp, heq, hne⟩ := mem_fields h
  subst heq
  exact ⟨hne, isTrimmed_trim p, fun hm => not_mem_of_mem_split hp (mem_of_mem_trim hm),
    hcs.of_isInfix ((isInfix_trim p).trans (isInfix_of_mem_split hp))⟩

end Command

open Command

namespace Line

variable {line : String} {name target : List Char} {parameters : List (List Char)} {c : Command}

-- The part of a line that counts.
def code (line : String) : List Char :=
  beforeComment line.toList

theorem trim_code_ne_nil (h : fields (code line) ≠ []) : trim (code line) ≠ [] := by
  intro htrim
  rw [← fields_trim, htrim] at h
  exact h rfl

theorem ofString_eq (h : trim (code line) ≠ []) :
    ofString line = ofFields (trim (code line)) (fields (code line)) := by
  have hempty : ¬(trim (code line)).isEmpty := by simpa using h
  rw [← fields_trim]
  exact if_neg hempty

theorem ofString_of_blank (h : trim (code line) = []) : ofString line = .blank :=
  if_pos (List.isEmpty_iff.2 h)

theorem ofString_of_fields (h : fields (code line) = name :: target :: parameters) :
    ofString line = .command {
      name := String.ofList name
      target := String.ofList target
      parameters := parameters.map String.ofList
      text := String.ofList (trim (code line)) } := by
  rw [ofString_eq (trim_code_ne_nil (by simp [h])), h]
  rfl

theorem ofString_of_malformed (h : (fields (code line)).length < 2) (hne : trim (code line) ≠ []) :
    ofString line = .malformed (String.ofList (trim (code line))) := by
  rw [ofString_eq hne]
  match hfields : fields (code line), h with
  | [], _  => rfl
  | [_], _ => rfl

end Line

namespace Command

variable {line : String} {c : Command}

theorem parse?_eq_none_iff : parse? line = none ↔ (fields (Line.code line)).length < 2 := by
  constructor
  · intro h
    match hfields : fields (Line.code line) with
    | [] | [_] => simp
    | name :: target :: parameters =>
      rw [parse?, Line.ofString_of_fields hfields] at h
      cases h
  · intro h
    by_cases hblank : trim (Line.code line) = []
    case pos => rw [parse?, Line.ofString_of_blank hblank]; rfl
    case neg => rw [parse?, Line.ofString_of_malformed h hblank]; rfl

-- A line is a command if it has a name and a target.
theorem parse?_eq_some_iff : parse? line = some c ↔
    fields (Line.code line) = (c.name :: c.target :: c.parameters).map String.toList ∧
      c.text.toList = trim (Line.code line) ∧ c.output = none := by
  constructor
  · intro h
    match hfields : fields (Line.code line) with
    | [] | [_] =>
      have hnone : parse? line = none := parse?_eq_none_iff.2 (by simp [hfields])
      cases hnone.symm.trans h
    | name :: target :: parameters =>
      rw [parse?, Line.ofString_of_fields hfields] at h
      cases h
      simp [Function.comp_def]
  · intro ⟨hfields, htext, houtput⟩
    rw [parse?, Line.ofString_of_fields hfields, ← htext]
    cases c
    cases houtput
    simp [Line.command?, Function.comp_def]

end Command

end StationScript
