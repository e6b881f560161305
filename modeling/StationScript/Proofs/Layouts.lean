import StationScript.Event
import StationScript.Proofs.Fields

namespace StationScript

open Text Command

-- What stands between two separators: a field with white space around it, or nothing but white space.
structure Cell where
  left : String := ""
  field : Option String
  right : String := ""
  isBlank : (left.toList ++ right.toList).all Text.isBlank := by decide
  isField : ∀ f ∈ field, IsField f.toList := by decide

namespace Cell

variable {cell next : Cell} {rest cells : List Cell}

def text (cell : Cell) : String :=
  cell.left ++ cell.field.getD "" ++ cell.right

-- The text of cells with a separator between each two.
def row (cells : List Cell) : String :=
  "^".intercalate (cells.map text)

theorem fields_text : fields cell.text.toList = (cell.field.map String.toList).toList := by
  have ⟨hleft, hright⟩ := List.forall_mem_append.1 (List.all_eq_true.1 cell.isBlank)
  rw [text, String.toList_append, String.toList_append, fields_append_blank hright, fields_blank_append hleft]
  cases hf : cell.field
  case none   => rfl
  case some f => exact fields_of_isField (cell.isField f hf)

theorem uncommented_text : Uncommented cell.text.toList := by
  have ⟨hleft, hright⟩ := List.forall_mem_append.1 (List.all_eq_true.1 cell.isBlank)
  have hfield : Uncommented (cell.field.getD "").toList := by
    cases hf : cell.field
    case none   => exact uncommented_nil
    case some f => exact (cell.isField f hf).uncommented
  rw [text, String.toList_append, String.toList_append]
  exact (hfield.blank_append hleft).append_blank hright

theorem row_cons_cons :
    (row (cell :: next :: rest)).toList = cell.text.toList ++ '^' :: (row (next :: rest)).toList := by
  simp [row]

theorem row_singleton : row [cell] = cell.text := by
  simp [row]

theorem fields_row : fields (row cells).toList = (cells.filterMap (·.field)).map String.toList := by
  induction cells
  case nil => rfl
  case cons cell rest ih =>
    have hfirst : (cell.field.map String.toList).toList ++ (rest.filterMap (·.field)).map String.toList =
        ((cell :: rest).filterMap (·.field)).map String.toList := by
      cases hf : cell.field <;> simp [hf]
    rw [← hfirst, ← fields_text, ← ih]
    cases rest
    case nil         => rw [row_singleton]; exact (List.append_nil _).symm
    case cons next _ => rw [row_cons_cons, fields_append]

-- A separator keeps slashes of two cells apart.
theorem uncommented_row : Uncommented (row cells).toList := by
  induction cells
  case nil => exact uncommented_nil
  case cons cell rest ih =>
    cases rest
    case nil         => rw [row_singleton]; exact uncommented_text
    case cons next _ => rw [row_cons_cons]; exact uncommented_append_cons (by decide) uncommented_text ih

end Cell

-- Fields laid out on a line. With a slash at the end of its cells, a comment would start one character earlier.
structure Layout where
  cells : List Cell
  comment : Option String := none
  noSlash : comment.isSome → (Cell.row cells).toList.getLast? ≠ some '/'

namespace Layout

variable {l : Layout}

def fields (l : Layout) : List String :=
  l.cells.filterMap (·.field)

-- The text in front of the comment.
def code (l : Layout) : String :=
  Cell.row l.cells

def line (l : Layout) : String :=
  match l.comment with
  | none      => l.code
  | some text => l.code ++ "//" ++ text

theorem code_line : Line.code l.line = l.code.toList := by
  unfold line Line.code
  cases hc : l.comment
  case none => exact beforeComment_of_uncommented Cell.uncommented_row
  case some text =>
    have hslash : Uncommented (l.code.toList ++ ['/']) :=
      Cell.uncommented_row.concat_slash (l.noSlash (by rw [hc]; rfl))
    rw [String.toList_append, String.toList_append]
    exact beforeComment_comment hslash text.toList

-- Every layout of two fields or more is read as the command with these fields. Neither the spacing nor empty fields
-- nor the comment can be told from it, but for what its text quotes, and nothing is reported.
theorem layout_is_read (l : Layout) {name target : String} {parameters : List String}
    (h : l.fields = name :: target :: parameters) :
    Line.ofString l.line = .command { name, target, parameters, text := trimmed l.code } ∧
      Command.parse? l.line = some { name, target, parameters, text := trimmed l.code } ∧
      (Line.ofString l.line).warnings = [] := by
  have hfields : Command.fields (Line.code l.line) = name.toList :: target.toList :: parameters.map String.toList := by
    rw [code_line, Layout.code, Cell.fields_row, ← Layout.fields, h]
    rfl
  have hline : Line.ofString l.line = .command { name, target, parameters, text := trimmed l.code } := by
    rw [Line.ofString_of_fields hfields, code_line]
    simp [Function.comp_def, trimmed]
  refine ⟨hline, ?_, ?_⟩
  · rw [Command.parse?, hline]
    rfl
  · rw [hline]
    rfl

-- Slashes on both sides of a separator, white space beyond ASCII, an empty field and a comment that follows a field
-- at once.
theorem layout_is_read_with_slashes :
    ∃ l : Layout, l.line = "\u00a0 A/^/B\t^\u3000^ C //comment ^ D" ∧ l.fields = ["A/", "/B", "C"] ∧
      Command.parse? l.line = some ⟨"A/", "/B", ["C"], "A/^/B\t^\u3000^ C", none⟩ := by
  let cells : List Cell := [
    { left := "\u00a0 ", field := some "A/" },
    { field := some "/B", right := "\t" },
    { left := "\u3000", field := none },
    { left := " ", field := some "C", right := " " }]
  let l : Layout := { cells, comment := some "comment ^ D", noSlash := by decide }
  have hfields : l.fields = ["A/", "/B", "C"] := rfl
  have ⟨_, hparse, _⟩ := layout_is_read l hfields
  exact ⟨l, by decide, hfields, hparse.trans (by decide)⟩

end Layout

end StationScript
