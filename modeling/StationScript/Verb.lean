namespace StationScript

inductive Verb
  | setOutput
  | clearOutput
  | slide
  | move
  | showDialog
  | showCountdown
  | wait
  | laserCurrent
  | laserPower
  | tecPower
  | read
  deriving DecidableEq, Repr

namespace Verb

-- Every verb, in the order in which the vocabulary is listed.
def all : List Verb :=
  [setOutput, clearOutput, slide, move, showDialog, showCountdown, wait, laserCurrent, laserPower, tecPower, read]

def name : Verb → String
  | setOutput => "SET_OUTPUT"
  | clearOutput => "CLEAR_OUTPUT"
  | slide => "SLIDE"
  | move => "MOVE"
  | showDialog => "SHOW_DIALOG"
  | showCountdown => "SHOW_COUNTDOWN"
  | wait => "WAIT"
  | laserCurrent => "LASER_CURRENT"
  | laserPower => "LASER_POWER"
  | tecPower => "TEC_POWER"
  | read => "READ"

-- The verb with exactly this name: case and surrounding space count.
def ofName? (s : String) : Option Verb :=
  all.find? (·.name == s)

-- The command names in the order of their code points.
def sortedNames : List String :=
  (all.map name).mergeSort (· ≤ ·)

theorem mem_all (v : Verb) : v ∈ all := by
  cases v <;> decide

theorem name_injective {v w : Verb} (h : v.name = w.name) : v = w := by
  cases v <;> cases w <;> first | rfl | exact absurd h (by decide)

theorem ofName?_name (v : Verb) : ofName? v.name = some v := by
  cases v <;> rfl

theorem name_of_ofName? {s : String} {v : Verb} (h : ofName? s = some v) : v.name = s := by
  have hname := List.find?_some h
  exact eq_of_beq hname

theorem ofName?_eq_some_iff {s : String} {v : Verb} : ofName? s = some v ↔ s = v.name :=
  ⟨fun h => (name_of_ofName? h).symm, fun h => h ▸ ofName?_name v⟩

end Verb

end StationScript
