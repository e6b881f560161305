import StationScript.Text.Blank

namespace StationScript

inductive Component
  | hexapodLeft
  | hexapodBottom
  | hexapodRight
  | gantry
  deriving DecidableEq, Repr

namespace Component

def all : List Component :=
  [hexapodLeft, hexapodBottom, hexapodRight, gantry]

def index : Component → Nat
  | hexapodLeft => 0
  | hexapodBottom => 1
  | hexapodRight => 2
  | gantry => 3

def name : Component → String
  | hexapodLeft => "HEXAPOD_LEFT"
  | hexapodBottom => "HEXAPOD_BOTTOM"
  | hexapodRight => "HEXAPOD_RIGHT"
  | gantry => "GANTRY"

-- The component with exactly this display name.
def ofName? (s : String) : Option Component :=
  all.find? (·.name == s)

-- The component that a target text addresses. White space around it and the case of ASCII letters do not
-- matter, and the underscore of a hexapod may be left out. The bottom hexapod has no spelling.
def resolve? (target : String) : Option Component :=
  match (Text.trimmed target).map Char.toUpper with
  | "GANTRY" => some gantry
  | "HEXAPOD_LEFT" | "HEXAPODLEFT" => some hexapodLeft
  | "HEXAPOD_RIGHT" | "HEXAPODRIGHT" => some hexapodRight
  | _ => none

theorem all_map_index : all.map index = [0, 1, 2, 3] :=
  rfl

theorem mem_all (c : Component) : c ∈ all := by
  cases c <;> decide

theorem index_injective {c d : Component} (h : c.index = d.index) : c = d := by
  cases c <;> cases d <;> simp_all [index]

theorem name_injective {c d : Component} (h : c.name = d.name) : c = d := by
  cases c <;> cases d <;> simp_all [name]

-- No text reaches the bottom hexapod, whatever controller is fitted there.
theorem resolve?_ne_hexapodBottom (target : String) : resolve? target ≠ some hexapodBottom := by
  unfold resolve?
  split <;> simp

end Component

end StationScript
