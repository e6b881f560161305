import Mathlib.Logic.Relation
import StationScript.Scope.Book

namespace StationScript

-- The steps taken so far on a book that was empty at first. The latest step comes first.
abbrev ScopeHistory := List ScopeStep

namespace ScopeHistory

-- How many scopes were opened. This is also the number of the scope to be opened next.
def openings : ScopeHistory → Nat
  | [] => 0
  | .scope _ :: earlier | .never _ :: earlier | .child _ _ :: earlier => openings earlier + 1
  | _ :: earlier => openings earlier

-- The number of the scope that a name stands for: the one that was opened under the name, or that of the name
-- it was cloned from.
def scope? : ScopeHistory → String → Option Nat
  | [], _ => none
  | .scope id :: earlier, name | .never id :: earlier, name | .child id _ :: earlier, name =>
    if name = id then some (openings earlier) else scope? earlier name
  | .clone id source :: earlier, name => if name = id then scope? earlier source else scope? earlier name
  | _ :: earlier, name => scope? earlier name

-- Some trigger of the scope was fired.
def Fired (history : ScopeHistory) (n : Nat) : Prop :=
  ∃ earlier id, .cancel id :: earlier <:+ history ∧ scope? earlier id = some n

-- The first scope was opened inside the second.
def Nested (history : ScopeHistory) (n m : Nat) : Prop :=
  ∃ earlier id outer, .child id outer :: earlier <:+ history ∧ openings earlier = n ∧
    scope? earlier outer = some m

-- The first scope is the second, or lies in it at some depth.
def Within (history : ScopeHistory) : Nat → Nat → Prop :=
  Relation.ReflTransGen (Nested history)

variable {history : ScopeHistory} {step : ScopeStep} {n m k : Nat} {name : String}

theorem openings_le_cons (history : ScopeHistory) (step : ScopeStep) :
    openings history ≤ openings (step :: history) := by
  cases step <;> simp [openings]

theorem scope?_lt_openings (h : scope? history name = some n) : n < openings history := by
  induction history generalizing name
  case nil => cases h
  case cons step earlier ih =>
    have hle := openings_le_cons earlier step
    cases step <;> simp only [scope?, openings] at h hle ⊢
    case scope | never | child =>
      split at h
      · cases h; omega
      · have := ih h; omega
    case clone => split at h <;> exact ih h
    all_goals exact ih h

theorem fired_cons : Fired (step :: history) n ↔
    (∃ id, step = .cancel id ∧ scope? history id = some n) ∨ Fired history n := by
  constructor
  · intro ⟨earlier, id, hs, hn⟩
    cases List.suffix_cons_iff.1 hs
    case inl he => cases he; exact .inl ⟨id, rfl, hn⟩
    case inr hs => exact .inr ⟨earlier, id, hs, hn⟩
  · rintro (⟨id, rfl, hn⟩ | ⟨earlier, id, hs, hn⟩)
    · exact ⟨history, id, List.suffix_rfl, hn⟩
    · exact ⟨earlier, id, hs.trans (List.suffix_cons ..), hn⟩

theorem nested_cons : Nested (step :: history) n m ↔
    (∃ id outer, step = .child id outer ∧ openings history = n ∧ scope? history outer = some m) ∨
      Nested history n m := by
  constructor
  · intro ⟨earlier, id, outer, hs, hn, hm⟩
    cases List.suffix_cons_iff.1 hs
    case inl he => cases he; exact .inl ⟨id, outer, rfl, hn, hm⟩
    case inr hs => exact .inr ⟨earlier, id, outer, hs, hn, hm⟩
  · rintro (⟨id, outer, rfl, hn, hm⟩ | ⟨earlier, id, outer, hs, hn, hm⟩)
    · exact ⟨history, id, outer, List.suffix_rfl, hn, hm⟩
    · exact ⟨earlier, id, outer, hs.trans (List.suffix_cons ..), hn, hm⟩

theorem openings_le_of_suffix {earlier : ScopeHistory} (h : earlier <:+ history) :
    openings earlier ≤ openings history := by
  induction history
  case nil => exact List.suffix_nil.1 h ▸ Nat.le_refl _
  case cons step rest ih =>
    cases List.suffix_cons_iff.1 h
    case inl he => exact he ▸ Nat.le_refl _
    case inr hs => exact Nat.le_trans (ih hs) (openings_le_cons ..)

-- A scope is opened after the scope around it.
theorem Nested.lt (h : Nested history n m) : m < n ∧ n < openings history := by
  obtain ⟨earlier, id, outer, hs, rfl, hm⟩ := h
  exact ⟨scope?_lt_openings hm, openings_le_of_suffix hs⟩

theorem Within.le (h : Within history n m) : m ≤ n := by
  induction h
  case refl => exact Nat.le_refl _
  case tail _ hstep ih => exact Nat.le_of_lt (Nat.lt_of_lt_of_le hstep.lt.left ih)

-- A scope is opened inside one other scope at most.
theorem Nested.unique (h : Nested history n m) (h' : Nested history n k) : m = k := by
  induction history
  case nil =>
    obtain ⟨_, _, _, hs, -⟩ := h
    cases List.suffix_nil.1 hs
  case cons step earlier ih =>
    rcases nested_cons.1 h with ⟨id, outer, rfl, hn, hm⟩ | h <;>
      rcases nested_cons.1 h' with ⟨id', outer', heq, hn', hk⟩ | h'
    · cases heq
      exact Option.some.inj (hm.symm.trans hk)
    · exact absurd h'.lt.right (by omega)
    · exact absurd h.lt.right (by omega)
    · exact ih h h'

-- A scope does not lie in a scope that was opened inside it.
theorem Nested.not_within (h : Nested history n m) : ¬Within history m n := by
  intro hw
  have := h.lt.left
  have := hw.le
  omega

-- Two scopes inside the same scope do not lie in each other.
theorem Nested.not_within_sibling (h : Nested history n k) (h' : Nested history m k) (hne : n ≠ m) :
    ¬Within history m n := by
  intro hw
  cases Relation.ReflTransGen.cases_head hw
  case inl he => exact hne he.symm
  case inr hstep =>
    have ⟨k', hk, hw⟩ := hstep
    exact h.not_within (hk.unique h' ▸ hw)

-- What lies around a scope does not change after it was opened.
theorem within_cons (hn : n < openings history) : Within (step :: history) n m ↔ Within history n m := by
  constructor
  · intro h
    induction h
    case refl => exact .refl
    case tail k m _ hstep ih =>
      cases nested_cons.1 hstep
      case inl hnew =>
        obtain ⟨_, _, -, hk, -⟩ := hnew
        have := ih.le
        omega
      case inr hold => exact .tail ih hold
  · exact Relation.ReflTransGen.mono (fun _ _ h => nested_cons.2 (.inr h)) _ _

-- Around a new scope lies whatever lies around the scope that it was opened in.
theorem within_child {id outer : String} (hk : scope? history outer = some k) :
    Within (.child id outer :: history) (openings history) m ↔ m = openings history ∨ Within history k m := by
  have hnew : Nested (.child id outer :: history) (openings history) k :=
    nested_cons.2 (.inl ⟨id, outer, rfl, rfl, hk⟩)
  have hold : Within (.child id outer :: history) k m ↔ Within history k m :=
    within_cons (scope?_lt_openings hk)
  constructor
  · intro h
    cases Relation.ReflTransGen.cases_head h
    case inl he => exact .inl he.symm
    case inr hstep =>
      have ⟨k', hk', hw⟩ := hstep
      exact .inr (hold.1 (hk'.unique hnew ▸ hw))
  · rintro (rfl | h)
    · exact .refl
    · exact .head hnew (hold.2 h)

-- Around a scope that was opened inside no other lies nothing.
theorem within_openings (hs : ∀ id outer, step ≠ .child id outer) :
    Within (step :: history) (openings history) m ↔ m = openings history := by
  constructor
  · intro h
    cases Relation.ReflTransGen.cases_head h
    case inl he => exact he.symm
    case inr hstep =>
      obtain ⟨_, hk, -⟩ := hstep
      cases nested_cons.1 hk
      case inl hnew =>
        obtain ⟨id, outer, he, -⟩ := hnew
        exact absurd he (hs id outer)
      case inr hold => exact absurd hold.lt.right (Nat.lt_irrefl _)
  · exact fun h => h ▸ .refl

end ScopeHistory

end StationScript
