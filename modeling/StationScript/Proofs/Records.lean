import StationScript.CommandLine.Console
import StationScript.Proofs.Instants
import StationScript.Proofs.Values
import StationScript.Text.Split

namespace StationScript

open Text

-- The instants from the start of 1970 to the end of 9999.
def Instant.InCalendar (t : Instant) : Prop :=
  0 ≤ t.nanoseconds ∧ t.nanoseconds < Date.dayTenThousand * Instant.perDay

theorem Instant.year_of_inCalendar {t : Instant} (h : t.InCalendar) : 0 ≤ t.date.year ∧ t.date.year ≤ 9999 := by
  have hday : (0 : Int) < perDay := by decide
  exact Date.year_ofDays (Int.ediv_nonneg h.left (Int.le_of_lt hday)) (Int.ediv_lt_of_lt_mul hday h.right)

namespace LineRecord

variable {r : LineRecord} {rs : List LineRecord}

-- A record that a machine can hold and a calendar can name.
structure Holdable (r : LineRecord) : Prop where
  number     : r.number < wordLimit
  executedAt : r.executedAt.InCalendar

-- What the fields of a record are, and that they are read back.
def fields (r : LineRecord) (h : r.Holdable) : List Json.Field :=
  [.ofWord "number" "usize" r.number h.number,
   .ofInstant "executed_at" r.executedAt.text r.executedAt
     (Instant.ofText_text (Instant.year_of_inCalendar h.executedAt)),
   .ofText "command_text" r.commandText, .ofBoolean "success" r.success, .ofText "output" r.output]

theorem ofText_render (h : r.Holdable) (form : Json.Form) : ofText (form.render r.toObject) = .ok r := by
  have hobject : r.toObject = (r.fields h).map Json.Field.member := rfl
  have hshape : shape.fields = (r.fields h).map Json.Field.declaration := rfl
  have hnames : ((r.fields h).map Json.Field.name).Nodup := by
    simp [fields, Json.Field.ofWord, Json.Field.ofInstant, Json.Field.ofText, Json.Field.ofBoolean]
  rw [ofText, hobject, Json.Shape.read_render hshape hnames (List.cons_ne_nil _ _)]
  rfl

theorem visible_compact (r : LineRecord) : Json.Visible r.toObject.compact.toList := by
  refine Json.Object.visible_compact ?_
  simp only [toObject, toObjectAt, List.forall_mem_cons]
  exact ⟨Json.visible_natural _, Json.visible_literal _, Json.visible_literal _, Json.visible_boolean _,
    Json.visible_literal _, List.forall_mem_nil _⟩

def tag : String :=
  "[LINE] "

-- What is printed for records: a line for each.
def log (rs : List LineRecord) : String :=
  String.join (rs.map fun r => LogForm.json.text (.line r) ++ "\n")

theorem text_toList (r : LineRecord) :
    (LogForm.json.text (.line r)).toList = tag.toList ++ r.toObject.compact.toList := by
  rw [← String.toList_append]
  rfl

end LineRecord

end StationScript
