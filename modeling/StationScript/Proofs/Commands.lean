import StationScript.Event
import StationScript.Proofs.Fields

namespace StationScript

open Text

theorem Line.ofString_of_parse? {line : String} {c : Command} (h : Command.parse? line = some c) :
    ofString line = .command c := by
  unfold Command.parse? at h
  cases hline : ofString line <;> rw [hline] at h <;> cases h
  rfl

namespace Command

variable {line : String} {c : Command} {cs : List Char} {w : String} {ws : List String}

-- All that a command says, in order.
def words (c : Command) : List String :=
  c.name :: c.target :: c.parameters

-- Words with a separator between each two, and a space on either side of it.
def spaced (ws : List String) : String :=
  " ^ ".intercalate ws

theorem isBlank_of_mem_space : ∀ c ∈ [' '], isBlank c :=
  List.forall_mem_singleton.2 rfl

theorem spaced_singleton : (spaced [w]).toList = w.toList := by
  simp [spaced]

theorem spaced_cons_cons {v : String} :
    (spaced (w :: v :: ws)).toList = w.toList ++ [' '] ++ '^' :: ([' '] ++ (spaced (v :: ws)).toList) := by
  simp [spaced]

theorem isField_of_parse? (h : parse? line = some c) (hw : w ∈ c.words) : IsField w.toList := by
  have ⟨hfields, _, _⟩ := parse?_eq_some_iff.1 h
  refine isField_of_mem (uncommented_beforeComment line.toList) (?_ : w.toList ∈ fields (Line.code line))
  rw [hfields]
  exact List.mem_map_of_mem hw

-- What is neither white space nor a separator is found in the fields.
theorem filter_flatten_fields :
    (fields cs).flatten.filter (!isBlank ·) = cs.filter fun x => !isBlank x && x != '^' := by
  have htrim : List.filter (!isBlank ·) ∘ trim = List.filter (!isBlank ·) := funext filter_trim
  calc (fields cs).flatten.filter (!isBlank ·)
    _ = ((split '^' cs).map trim).flatten.filter (!isBlank ·) := by rw [fields, List.flatten_filter_not_isEmpty]
    _ = ((split '^' cs).map (·.filter (!isBlank ·))).flatten  := by rw [List.filter_flatten, List.map_map, htrim]
    _ = (cs.filter (· != '^')).filter (!isBlank ·)            := by rw [← List.filter_flatten, flatten_split]
    _ = cs.filter fun x => !isBlank x && x != '^'             := List.filter_filter

theorem fields_spaced (h : ∀ w ∈ ws, IsField w.toList) : fields (spaced ws).toList = ws.map String.toList := by
  induction ws
  case nil => rfl
  case cons w rest ih =>
    have ⟨hw, hrest⟩ := List.forall_mem_cons.1 h
    cases rest
    case nil => rw [spaced_singleton, fields_of_isField hw]; rfl
    case cons v rest =>
      rw [spaced_cons_cons, fields_append, fields_append_blank isBlank_of_mem_space,
        fields_blank_append isBlank_of_mem_space, fields_of_isField hw, ih hrest]
      rfl

theorem uncommented_spaced (h : ∀ w ∈ ws, IsField w.toList) : Uncommented (spaced ws).toList := by
  induction ws
  case nil => exact uncommented_nil
  case cons w rest ih =>
    have ⟨hw, hrest⟩ := List.forall_mem_cons.1 h
    cases rest
    case nil => rw [spaced_singleton]; exact hw.uncommented
    case cons v rest =>
      rw [spaced_cons_cons]
      exact uncommented_append_cons (by decide) (hw.uncommented.append_blank isBlank_of_mem_space)
        ((ih hrest).blank_append isBlank_of_mem_space)

-- A command as it is read from a line.
structure ReadFrom (line : String) (c : Command) : Prop where
  -- No word is empty, has white space around it, or holds a separator or a comment marker.
  isField  : ∀ w ∈ c.words, IsField w.toList
  -- The text is what stands in front of the first comment marker, without the white space around it.
  text     : ∃ code, CodeOf line.toList code ∧ c.text.toList = trim code
  -- Without white space and separators, the text is its words one after another, without their white space.
  lossless : c.text.toList.filter (fun x => !isBlank x && x != '^') =
    (c.words.flatMap String.toList).filter (!isBlank ·)
  stable   : parse? c.text = some c
  spaced   : ∃ d, parse? (spaced c.words) = some d ∧ d.name = c.name ∧ d.target = c.target ∧
    d.parameters = c.parameters

-- A line from which no command is read. There is no text in front of the first comment marker, and nothing is reported,
-- or there is text with too few fields, and that is reported by one warning.
def Unread (line : String) : Prop :=
  ∃ code, CodeOf line.toList code ∧
    (trim code = [] ∧ (Line.ofString line).warnings = [] ∨
      trim code ≠ [] ∧ (fields (trim code)).length < 2 ∧ ∃ e, (Line.ofString line).warnings = [e] ∧ e.level = .warn)

theorem parse?_text (h : parse? line = some c) : parse? c.text = some c := by
  have ⟨hfields, htext, houtput⟩ := parse?_eq_some_iff.1 h
  have huncommented : Uncommented c.text.toList := by
    rw [htext]
    exact (uncommented_beforeComment line.toList).of_isInfix (isInfix_trim _)
  have hcode : Line.code c.text = trim (Line.code line) := (beforeComment_of_uncommented huncommented).trans htext
  refine parse?_eq_some_iff.2 ⟨?_, ?_, houtput⟩
  · rw [hcode, fields_trim, hfields]
  · rw [hcode, trim_trim, htext]

-- Fields with separators between them are a command.
theorem parse?_spaced {name target : String} {parameters : List String}
    (h : ∀ w ∈ name :: target :: parameters, IsField w.toList) :
    parse? (spaced (name :: target :: parameters)) =
      some { name, target, parameters, text := trimmed (spaced (name :: target :: parameters)) } := by
  have hcode : Line.code (spaced (name :: target :: parameters)) = (spaced (name :: target :: parameters)).toList :=
    beforeComment_of_uncommented (uncommented_spaced h)
  refine parse?_eq_some_iff.2 ⟨?_, ?_, rfl⟩
  · rw [hcode, fields_spaced h]
  · rw [hcode, trimmed_toList]

theorem exists_parse?_spaced (h : parse? line = some c) :
    ∃ d, parse? (spaced c.words) = some d ∧ d.name = c.name ∧ d.target = c.target ∧ d.parameters = c.parameters :=
  ⟨_, parse?_spaced fun _ => isField_of_parse? h, rfl, rfl, rfl⟩

theorem readFrom_of_parse? (h : parse? line = some c) : ReadFrom line c := by
  have ⟨hfields, htext, _⟩ := parse?_eq_some_iff.1 h
  refine ⟨fun w => isField_of_parse? h, ⟨_, codeOf_beforeComment line.toList, htext⟩, ?_, parse?_text h,
    exists_parse?_spaced h⟩
  have hwords : c.words.flatMap String.toList = (fields c.text.toList).flatten := by
    rw [htext, fields_trim, hfields, List.flatMap_def]
    rfl
  rw [hwords, filter_flatten_fields]

theorem unread_of_parse? (h : parse? line = none) : Unread line := by
  have hshort := parse?_eq_none_iff.1 h
  refine ⟨Line.code line, codeOf_beforeComment line.toList, ?_⟩
  by_cases hblank : trim (Line.code line) = []
  case pos => exact .inl ⟨hblank, by rw [Line.ofString_of_blank hblank]; rfl⟩
  case neg =>
    refine .inr ⟨hblank, by rwa [fields_trim], ?_⟩
    exact ⟨_, by rw [Line.ofString_of_malformed hshort hblank]; rfl, rfl⟩

-- What is read from a line is well formed, lossless and stable, and a line that says something but no command is
-- reported once.
theorem reading_is_faithful (line : String) :
    (∀ c, parse? line = some c → ReadFrom line c) ∧ (parse? line = none → Unread line) :=
  ⟨fun _ => readFrom_of_parse?, unread_of_parse?⟩

-- Empty fields, slashes at the edges of words, and a comment that begins within a row of slashes.
theorem reading_is_faithful_with_slashes :
    let c : Command := ⟨"A/", "/B", ["C D"], "A/^ ^/B^C D", none⟩
    parse? " A/^ ^/B^C D///" = some c ∧ ReadFrom " A/^ ^/B^C D///" c ∧ parse? "^A///" = none ∧ Unread "^A///" := by
  let c : Command := ⟨"A/", "/B", ["C D"], "A/^ ^/B^C D", none⟩
  have hread : parse? " A/^ ^/B^C D///" = some c := by decide
  have hunread : parse? "^A///" = none := by decide
  exact ⟨hread, (reading_is_faithful _).left c hread, hunread, (reading_is_faithful _).right hunread⟩

end Command

end StationScript
