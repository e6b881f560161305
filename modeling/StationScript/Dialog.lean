namespace StationScript

inductive DialogKind
  | ok
  | yesNo
  deriving DecidableEq, Repr

namespace DialogKind

def name : DialogKind → String
  | ok => "Ok"
  | yesNo => "YesNo"

def keyword : DialogKind → String
  | ok => "OK"
  | yesNo => "YES_NO"

-- The kind with exactly this keyword.
def ofKeyword? : String → Option DialogKind
  | "OK" => some ok
  | "YES_NO" => some yesNo
  | _ => none

theorem ofKeyword?_keyword (k : DialogKind) : ofKeyword? k.keyword = some k := by
  cases k <;> rfl

end DialogKind

inductive Answer
  | ok
  | yes
  | no
  deriving DecidableEq, Repr

def Answer.name : Answer → String
  | ok => "Ok"
  | yes => "Yes"
  | no => "No"

-- Who answers the dialogs of a simulated station.
inductive DialogPolicy
  -- The operator, at the terminal.
  | prompt
  | yes
  | no
  deriving DecidableEq, Repr

namespace DialogPolicy

def name : DialogPolicy → String
  | prompt => "prompt"
  | yes => "yes"
  | no => "no"

def all : List DialogPolicy :=
  [prompt, yes, no]

def ofName? (s : String) : Option DialogPolicy :=
  all.find? (·.name == s)

-- The answer that the policy gives without asking anyone. A policy that would ask counts as Yes.
def answer : DialogPolicy → DialogKind → Answer
  | _, .ok => .ok
  | no, .yesNo => .no
  | _, .yesNo => .yes

end DialogPolicy

end StationScript
