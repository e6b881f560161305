import StationScript.Yaml.Scalar

namespace StationScript.Yaml

structure Site where
  document : Document
  path : Path := []

-- Reading counts the aliases that it follows.
abbrev Reading (α : Type) :=
  StateT Nat (Except Fault) α

abbrev Reader (α : Type) :=
  Site → Node → Reading α

namespace Site

def below (s : Site) (step : Step) : Site :=
  { s with path := step :: s.path }

-- The node that this one lies in.
def above (s : Site) : Site :=
  { s with path := s.path.tail }

def fail {α : Type} (s : Site) (reason : Reason) : Reading α :=
  throw ⟨s.path, reason⟩

-- How often aliases may be followed for each part of the document.
def aliasesPerPart : Nat :=
  100

-- The number of parts of a document; an empty one has one too.
def parts (s : Site) : Nat :=
  s.document.root.size

-- The node itself, or the one that it refers to.
def follow (s : Site) (n : Node) : Reading Node :=
  match n with
  | .alias number => fun count =>
    if s.parts * aliasesPerPart < count + 1 then throw ⟨s.path, .repetition⟩
    else return ((s.document.target? number).getD .cut, count + 1)
  | n => pure n

end Site

namespace Reader

def textAs (expected : String) : Reader String := fun site n => do
  match ← site.follow n with
  | .scalar _ s => return s.text
  | .sequence .. => site.fail (.invalidType .sequence expected)
  | .mapping .. => site.fail (.invalidType .map expected)
  | .alias _ | .cut => site.fail .malformed

def text : Reader String :=
  textAs "a string"

def scalar {α : Type} (kind expected : String) (meaning : String → Option α) : Reader α := fun site n => do
  match ← site.follow n with
  | .scalar _ s =>
    match if s.admits kind then meaning s.text else none with
    | some a => return a
    | none => site.fail (s.mismatch expected)
  | .sequence .. => site.fail (.invalidType .sequence expected)
  | .mapping .. => site.fail (.invalidType .map expected)
  | .alias _ | .cut => site.fail .malformed

def word : Reader Nat :=
  scalar "int" "u64" fun s => natural? Text.wordLimit s.toList

def boolean : Reader Bool :=
  scalar "bool" "a boolean" boolean?

def double : Reader Double :=
  scalar "float" "f64" double?

-- Whether a written value may be left to a reader. A value with the tag of nothing must not say anything.
def isPresent (site : Site) (s : Scalar) : Reading Bool :=
  if s.style ≠ .plain then return true
  else
    match s.tag with
    | none => return s.text ≠ "" && !isNull s.text
    | some tag =>
      if tag ≠ coreTag "null" then return true
      else if isNull s.text then return false
      else site.above.fail (.invalidValue (.text s.text) "null")

def option {α : Type} (r : Reader α) : Reader (Option α) := fun site n => do
  match ← site.follow n with
  | .scalar a s => if ← isPresent site s then some <$> r site (.scalar a s) else return none
  | n => some <$> r site n

def items {α : Type} (r : Reader α) (site : Site) : Nat → List Node → Reading (List α)
  | _, [] => return []
  | index, n :: rest => do
    let a ← r (site.below (.item index)) n
    let l ← items r site (index + 1) rest
    return a :: l

-- A sequence; nothing stands for an empty one.
def list {α : Type} (r : Reader α) : Reader (List α) := fun site n => do
  match ← site.follow n with
  | .sequence _ _ l => items r site 0 l
  | .scalar _ s => if s.isBlank then return [] else site.fail (s.mismatch "a sequence")
  | .mapping .. => site.fail (.invalidType .map "a sequence")
  | .alias _ | .cut => site.fail .malformed

-- The choice that a tag names, if the tag is a name.
def choiceTag? (tag : Option String) : Option String :=
  match tag.map String.toList with
  | some ['!'] => some "!"
  | some ('!' :: rest) => some (String.ofList rest)
  | _ => none

def choose {α : Type} (choices : List (String × α)) (site : Site) (name : String) : Reading α :=
  match choices.lookup name with
  | some a => return a
  | none => site.fail (.unknownVariant name (choices.map (·.1)))

-- A choice by its name, which is the text of the value or its tag. With a tag nothing else may be said. A wrong
-- tag counts as a fault of what the value lies in, unless an alias led to it.
def choice {α : Type} (choices : List (String × α)) : Reader α := fun site n => do
  let tagSite := match n with
    | .alias _ => site
    | _ => site.above
  let untagged (found : Found) : Reading α := site.fail (.invalidType found "a YAML tag starting with '!'")
  match ← site.follow n with
  | .scalar _ s =>
    match choiceTag? s.tag with
    | none => choose choices site s.text
    | some name => do
      let a ← choose choices tagSite name
      if s.style = .plain ∧ (s.text = "" ∨ isNull s.text) then return a
      else site.fail (.invalidValue (.text s.text) "null")
  | .sequence _ tag _ =>
    match choiceTag? tag with
    | none => untagged .sequence
    | some name => do
      let _ ← choose choices tagSite name
      site.fail (.invalidType .sequence "unit")
  | .mapping _ tag _ =>
    match choiceTag? tag with
    | none => untagged .map
    | some name => do
      let _ ← choose choices tagSite name
      site.fail (.invalidType .map "unit")
  | .alias _ | .cut => site.fail .malformed

end Reader

structure Field (σ : Type) where
  name : String
  -- Whether the field must be there.
  required : Bool := false
  read : Reader (σ → σ)

-- A record: what it is before any field is read, and its fields.
structure Form (σ : Type) where
  name : String
  start : σ
  fields : List (Field σ)

namespace Field

-- A field whose value replaces what the record holds.
def of {σ α : Type} (name : String) (r : Reader α) (set : α → σ → σ) : Field σ where
  name
  read site n := do return set (← r site n)

-- A field without which there is no record.
def require {σ : Type} (f : Field σ) : Field σ :=
  { f with required := true }

end Field

namespace Form

variable {σ : Type}

def field? (f : Form σ) (name : String) : Option (Field σ) :=
  f.fields.find? (·.name == name)

-- The step to the value behind a key.
def step : Node → Step
  | .scalar _ s => .field s.text
  | _ => .entry

-- Reads entries on top of the fields that were read before. A known field must not come twice.
def entries (f : Form σ) (site : Site) (seen : List String) (record : σ) :
    List (Node × Node) → Reading (List String × σ)
  | [] => return (seen, record)
  | (key, value) :: rest => do
    let name ← Reader.textAs "field identifier" site key
    match f.field? name with
    | some field =>
      if seen.contains name then site.fail (.duplicateField name)
      else
        let set ← field.read (site.below (step key)) value
        entries f site (name :: seen) (set record) rest
    | none => if value.isCut then site.fail .malformed else entries f site seen record rest

-- The record, if no field is missing.
def finish (f : Form σ) (site : Site) (seen : List String) (record : σ) : Reading σ :=
  match f.fields.find? fun field => field.required && !seen.contains field.name with
  | some field => site.fail (.missingField field.name)
  | none => return record

-- Reads a record; nothing stands for one without fields.
def read (f : Form σ) : Reader σ := fun site n => do
  let expected := "struct " ++ f.name
  match ← site.follow n with
  | .mapping _ _ l => do
    let (seen, record) ← f.entries site [] f.start l
    f.finish site seen record
  | .scalar _ s => if s.isBlank then f.finish site [] f.start else site.fail (s.mismatch expected)
  | .sequence .. => site.fail (.invalidType .sequence expected)
  | .alias _ | .cut => site.fail .malformed

def ofDocument (f : Form σ) (d : Document) : Except Fault σ := do
  let (record, _) ← f.read { document := d } d.root 0
  if d.complete then return record else throw ⟨[], .malformed⟩

end Form

end StationScript.Yaml
