import Mathlib.Data.List.TakeWhile
import StationScript.CommandLine.Arguments
import StationScript.Proofs.Lists
import StationScript.Proofs.Numerals

namespace StationScript

namespace OptionName

variable {f name : OptionName}

-- The argument that chooses an option.
def text (f : OptionName) : String :=
  "--" ++ f.long

end OptionName

namespace Argument

variable {arg name : String}

end Argument

namespace Arguments

-- The arguments in front of the first separator. What stands behind it is no option.
def beforeSeparator (args : List String) : List String :=
  args.takeWhile (· ≠ "--")

end Arguments

open Arguments (beforeSeparator)

theorem Text.Spells.comma_not_mem {s : String} {n : Nat} (h : Spells s n) : ',' ∉ s.toList := by
  obtain ⟨digits, hs, _, hdigits, _⟩ := h
  have hcomma : ',' ∉ digits := fun hm => absurd (hdigits _ hm) (by decide)
  rcases hs with hs | hs <;> simp [hs, hcomma]

namespace Choices

variable {c c' : Choices} {f name : OptionName} {s : Section}

-- Numbers are written in decimal, with commas between them and nothing else around them.
theorem numbers?_eq_some_iff {text : String} {numbers : List Nat} : numbers? text = some numbers ↔
    numbers ≠ [] ∧ ∃ pieces : List String, text = ",".intercalate pieces ∧
      List.Forall₂ (fun piece n => Text.Spells piece n ∧ n < 2 ^ 64) pieces numbers := by
  rw [numbers?, mapM_eq_some_iff]
  simp only [Text.natural?_eq_some_iff]
  constructor
  case mp =>
    intro h
    refine ⟨?_, (Text.split ',' text.toList).map String.ofList, ?_, List.forall₂_map_left_iff.2 h⟩
    · rintro rfl
      cases h
    · obtain ⟨_, _, htext⟩ := Text.split_eq_iff.1 (Eq.refl (Text.split ',' text.toList))
      rw [← String.toList_inj, String.toList_intercalate, List.map_map]
      simpa using htext
  case mpr =>
    rintro ⟨hne, pieces, rfl, h⟩
    have hpieces : pieces ≠ [] := by
      rintro rfl
      cases h
      exact hne rfl
    have hcommas : ∀ piece ∈ pieces, ',' ∉ piece.toList := by
      intro piece hpiece
      obtain ⟨_, _, hspells, _⟩ := exists_rel_of_mem h hpiece
      exact hspells.comma_not_mem
    have hsplit : Text.split ',' (",".intercalate pieces).toList = pieces.map String.toList := by
      refine Text.split_eq_iff.2 ⟨by simpa using hpieces, List.forall_mem_map.2 hcommas, String.toList_intercalate⟩
    rw [hsplit, List.forall₂_map_left_iff]
    simpa using h

theorem numbers?_repr {numbers : List Nat} (hne : numbers ≠ []) (hlt : ∀ n ∈ numbers, n < 2 ^ 64) :
    numbers? (",".intercalate (numbers.map Nat.repr)) = some numbers := by
  refine numbers?_eq_some_iff.2 ⟨hne, _, rfl, List.forall₂_map_left_iff.2 ?_⟩
  exact List.forall₂_same.2 fun n hn => ⟨Text.spells_repr n, hlt n hn⟩

-- Whether an option without a value was chosen.
def flag (c : Choices) : OptionName → Bool
  | .stopOnFailure => c.stopOnFailure
  | .json => c.json
  | .pretty => c.pretty
  | _ => false

end Choices

variable {s : Section} {c c' c₁ : Choices} {f : OptionName} {pending : Option OptionName} {args rest : List String}

-- The options that wait for a value are none of those that take no value.
def AwaitsValue (pending : Option OptionName) : Prop :=
  ∀ name ∈ pending, name.takesValue

theorem AwaitsValue.none : AwaitsValue none := by
  intro _ h
  cases h

namespace Section.Takes

variable {arg name : String} {value : Option String} {letters : List Char}

end Section.Takes

-- What all the arguments that a section reads do to it.
structure Section.Reads (s : Section) (f : OptionName) (c c' : Choices) (read : List String) : Prop where
  chosen  : c'.flag f ↔ c.flag f ∨ f.text ∈ beforeSeparator read
  offered : f.text ∈ beforeSeparator read → f ∈ s.options

namespace Arguments

variable {a : Arguments} {script : String} {select : List Nat} {dialog : Option String} {stop : Bool} {form : LogForm}

end Arguments

end StationScript
