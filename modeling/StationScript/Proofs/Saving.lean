import StationScript.Proofs.Objects
import StationScript.Script

namespace StationScript

namespace Files

variable {f f' : Files} {here l d : Location} {names : List String} {path text : String}

-- The files with a text at a location, in place of what was there.
def put (f : Files) (l : Location) (text : String) : Files :=
  { f with entries := (l, .text text) :: f.entries.filter (·.1 ≠ l) }

theorem exists_put_of_write (h : f.write path text = .ok f') :
    ∃ l, f.locate path = .ok l ∧ f.entry? l ≠ some .directory ∧ f' = f.put l text := by
  unfold write at h
  cases hl : f.locate (Path.withoutSlashes path)
  case error => rw [hl] at h; cases h
  case ok l =>
    rw [hl] at h
    simp only [bind, Except.bind] at h
    split at h
    case isTrue => cases h
    case isFalse hpath =>
      rw [not_not] at hpath
      rw [hpath] at hl
      split at h
      case h_1 => cases h
      case h_2 hfile => exact ⟨l, hl, hfile, (Except.ok.inj h).symm⟩

theorem entry?_put : entry? (f.put l text) l = some (.text text) := by
  simp [put, entry?]

-- A text is put into directories that exist, and they stay.
theorem entry?_put_of_directory (hl : f.entry? l ≠ some .directory) (hd : f.entry? d = some .directory) :
    entry? (f.put l text) d = some .directory := by
  have hne : d ≠ l := fun heq => hl (heq ▸ hd)
  have hlookup : (f.put l text).entries.lookup d = f.entries.lookup d := by
    have hrest : f.entries.filter (fun e => decide (e.1 ≠ l)) = f.entries.filter (·.1 != l) :=
      List.filter_congr fun e _ => by rw [Bool.eq_iff_iff]; simp
    rw [put, List.lookup_cons, beq_false_of_ne hne, hrest]
    exact lookup_filter_ne hne
  unfold entry? at hd ⊢
  rw [hlookup]
  cases he : f.entries.lookup d
  case some e => rw [he] at hd; exact hd
  case none =>
    -- A directory that is not listed holds something, and it still does: if that is replaced, by the text.
    rw [he] at hd
    have hholds : d.isPrefixOf f.here ∨ f.entries.any fun e => d.isPrefixOf e.1 := by
      by_contra hnone
      simp only [if_neg hnone] at hd
      cases hd
    have hstill : d.isPrefixOf (f.put l text).here ∨ (f.put l text).entries.any fun e => d.isPrefixOf e.1 := by
      refine hholds.imp_right fun hany => ?_
      have ⟨e, hmem, hprefix⟩ := List.any_eq_true.1 hany
      by_cases hel : e.1 = l
      case pos => exact List.any_eq_true.2 ⟨_, List.mem_cons_self .., hel ▸ hprefix⟩
      case neg =>
        have hmem : e ∈ (f.put l text).entries := List.mem_cons_of_mem _ (List.mem_filter.2 ⟨hmem, by simpa using hel⟩)
        exact List.any_eq_true.2 ⟨e, hmem, hprefix⟩
    simp only [if_pos hstill]

-- So paths lead where they led before.
theorem follow_put (hl : f.entry? l ≠ some .directory) (h : f.follow here names = .ok d) :
    (f.put l text).follow here names = .ok d := by
  induction names generalizing here
  case nil => exact h
  case cons name rest ih =>
    unfold follow at h ⊢
    split_ifs at h ⊢
    -- An empty name and a step back, the last name, and a name that must lead to a directory.
    case _ | _ => exact ih h
    case _ => exact h
    case _ =>
      split at h
      case h_1 hdirectory => rw [entry?_put_of_directory hl hdirectory]; exact ih h
      all_goals cases h

theorem locate_put (hl : f.entry? l ≠ some .directory) (h : f.locate path = .ok d) :
    (f.put l text).locate path = .ok d := by
  have hsame (start : Location) (hd : f.follow start (Path.parts path) = .ok d) :
      (f.put l text).follow start (Path.parts path) = .ok d := follow_put hl hd
  unfold locate at h ⊢
  split_ifs at h ⊢
  all_goals exact hsame _ h

-- What was written to a path is read there.
theorem read_of_write (h : f.write path text = .ok f') : f'.read path = .ok text := by
  obtain ⟨l, hl, hfile, rfl⟩ := exists_put_of_write h
  simp only [read, locate_put hfile hl, bind, Except.bind, entry?_put]

end Files

namespace Script

variable {s : Script} {a : Access} {path : String}

def fields (s : Script) : List Json.Field :=
  [.ofText "Version" s.version, .ofTexts "Commands" s.commands]

-- The text of a document says all that is in the script.
theorem ofText_render (s : Script) : ofText s.render = .ok s := by
  have hrender : s.render = Json.Form.pretty.render (s.fields.map Json.Field.member) := rfl
  have hshape : shape.fields = s.fields.map Json.Field.declaration := rfl
  have hnames : (s.fields.map Json.Field.name).Nodup := by simp [fields, Json.Field.ofText, Json.Field.ofTexts]
  rw [ofText, hrender, Json.Shape.read_render hshape hnames (List.cons_ne_nil _ _)]
  rfl

theorem load_of_read (h : a.read path = .ok s.render) : load a path = .ok (s, s.warnings path) := by
  rw [load, readFile, h]
  simp [Except.mapError, bind, Except.bind, ofText_render]
  rfl

theorem open_of_document (h : a.read path = .ok s.render) (hdocument : isDocument path) :
    Script.open a path = .ok (s, s.warnings path) := by
  rw [Script.open, if_pos hdocument, load_of_read h]

-- What is read where a script was saved is the text of its document.
theorem read_of_save {f f' : Files} (h : s.save f path = .ok f') : f'.access.read path = .ok s.render := by
  have hwrite : f.write path s.render = .ok f' := by
    rw [save] at h
    cases hw : f.write path s.render <;> rw [hw] at h <;> cases h
    rfl
  exact Files.read_of_write hwrite

-- A script that was saved is loaded as it was, and opened as it was if its path is named as a document, wherever what
-- was written is read again: that is so of the files from the root on, for every path, and of whatever else gives the
-- text back. There is one warning if the script has another version than the one that is written, and none otherwise.
theorem load_of_save (s : Script) (path : String) :
    (∀ f f' : Files, s.save f path = .ok f' →
      load f'.access path = .ok (s, s.warnings path) ∧
      (Path.extension? path = some "script" ∨ Path.extension? path = some "json" →
        Script.open f'.access path = .ok (s, s.warnings path))) ∧
    (∀ a : Access, a.read path = .ok s.render →
      load a path = .ok (s, s.warnings path) ∧
      (Path.extension? path = some "script" ∨ Path.extension? path = some "json" →
        Script.open a path = .ok (s, s.warnings path))) ∧
    (s.version = "1.0" → s.warnings path = []) ∧
    (s.version ≠ "1.0" → ∃ e, s.warnings path = [e] ∧ e.level = .warn) := by
  have hload (a : Access) (h : a.read path = .ok s.render) :
      load a path = .ok (s, s.warnings path) ∧
      (Path.extension? path = some "script" ∨ Path.extension? path = some "json" →
        Script.open a path = .ok (s, s.warnings path)) := by
    refine ⟨load_of_read h, fun hext => open_of_document h ?_⟩
    simpa [isDocument] using hext
  exact ⟨fun f f' hsave => hload _ (read_of_save hsave), hload, fun hv => if_pos hv, fun hv => ⟨_, if_neg hv, rfl⟩⟩

-- Quotation marks, a backslash, control characters and characters beyond ASCII, in a document of another version. It is
-- saved under an absolute path that goes through a directory twice, in place of a file that was no text, and under a
-- relative path that leads above the working directory.
theorem load_of_save_escaped :
    let s : Script := ⟨"2.0 \"beta\"", ["// \\ \x01\n\t\u2028", "", "MOVE ^ GÄNTRY ^ 🔬"]⟩
    let f : Files := ⟨[(["tmp", "old", "a.json"], .binary)], ["tmp", "work"]⟩
    (∃ f', s.save f "/tmp/old/../old/a.json" = .ok f' ∧ f'.entries.length = 1 ∧
      Script.open f'.access "/tmp/old/../old/a.json" = .ok (s, s.warnings "/tmp/old/../old/a.json") ∧
      ∃ e, s.warnings "/tmp/old/../old/a.json" = [e] ∧ e.level = .warn) ∧
    ∃ f', s.save f "../b.script" = .ok f' ∧ f'.entries.length = 2 ∧
      Script.open f'.access "../b.script" = .ok (s, s.warnings "../b.script") ∧
      load f'.access "/tmp/b.script" = .ok (s, s.warnings "/tmp/b.script") := by
  let s : Script := ⟨"2.0 \"beta\"", ["// \\ \x01\n\t\u2028", "", "MOVE ^ GÄNTRY ^ 🔬"]⟩
  let f : Files := ⟨[(["tmp", "old", "a.json"], .binary)], ["tmp", "work"]⟩
  refine ⟨?absolute, ?above⟩
  case absolute =>
    let f' : Files := ⟨[(["tmp", "old", "a.json"], .text s.render)], ["tmp", "work"]⟩
    have hsave : s.save f "/tmp/old/../old/a.json" = .ok f' := by rfl
    have ⟨hsaved, _, _, hwarned⟩ := load_of_save s "/tmp/old/../old/a.json"
    exact ⟨f', hsave, rfl, (hsaved f f' hsave).right (by decide), hwarned (by decide)⟩
  case above =>
    let f' : Files := ⟨(["tmp", "b.script"], .text s.render) :: f.entries, ["tmp", "work"]⟩
    have hsave : s.save f "../b.script" = .ok f' := by rfl
    have hsaved := (load_of_save s "../b.script").left f f' hsave
    have hread : f'.access.read "/tmp/b.script" = .ok s.render := by rfl
    exact ⟨f', hsave, rfl, hsaved.right (by decide), ((load_of_save s "/tmp/b.script").right.left _ hread).left⟩

end Script

end StationScript
