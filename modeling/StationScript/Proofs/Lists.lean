import Mathlib.Algebra.Ring.Nat
import Mathlib.Data.List.Forall2
import Mathlib.Data.List.Induction

namespace StationScript

-- What is noted under another key goes untouched.
theorem lookup_filter_ne {α β : Type} [BEq α] [LawfulBEq α] {entries : List (α × β)} {key other : α}
    (h : key ≠ other) : (entries.filter (·.1 != other)).lookup key = entries.lookup key := by
  induction entries
  case nil => rfl
  case cons entry rest ih =>
    have ⟨k, value⟩ := entry
    by_cases hk : k = other
    case pos => simp [hk, ih, List.lookup_cons, beq_false_of_ne h]
    case neg => simp [hk, ih, List.lookup_cons]

-- Where each key stands once, what is noted under it is found.
theorem lookup_of_mem {α β : Type} [BEq α] [LawfulBEq α] {entries : List (α × β)} {key : α} {value : β}
    (h : (entries.map (·.1)).Nodup) (hm : (key, value) ∈ entries) : entries.lookup key = some value := by
  induction entries
  case nil => cases hm
  case cons entry rest ih =>
    have ⟨hkey, hrest⟩ := List.nodup_cons.1 h
    cases List.mem_cons.1 hm
    case inl heq => rw [← heq, List.lookup_cons_self]
    case inr hm =>
      have hne : key ≠ entry.1 := fun heq => hkey (List.mem_map.2 ⟨_, hm, heq⟩)
      rw [List.lookup_cons, beq_false_of_ne hne]
      exact ih hrest hm

-- Of all entries of a kind, this is the last one in the journal.
def LastOf (kind : String → Prop) (journal : List String) (entry : String) : Prop :=
  ∃ earlier later, journal = earlier ++ entry :: later ∧ kind entry ∧ ∀ e ∈ later, ¬kind e

section

variable {kind : String → Prop} {journal : List String} {e entry : String}

theorem LastOf.mem (h : LastOf kind journal entry) : entry ∈ journal := by
  have ⟨earlier, later, heq, _⟩ := h
  rw [heq]
  exact List.mem_append_right _ (List.mem_cons_self ..)

theorem LastOf.isOfKind (h : LastOf kind journal entry) : kind entry := by
  have ⟨_, _, _, hk, _⟩ := h
  exact hk

theorem not_lastOf_nil : ¬LastOf kind [] entry :=
  fun ⟨_, _, h, _⟩ => by simp at h

theorem lastOf_concat :
    LastOf kind (journal ++ [e]) entry ↔ kind e ∧ e = entry ∨ ¬kind e ∧ LastOf kind journal entry := by
  constructor
  · rintro ⟨earlier, later, heq, hk, hlater⟩
    rcases List.eq_nil_or_concat later with rfl | ⟨later, e', rfl⟩
    · have hlast : e = entry := List.singleton_inj.1 (List.append_inj_right' heq rfl)
      exact .inl ⟨hlast ▸ hk, hlast⟩
    · rw [List.concat_eq_append, ← List.cons_append, ← List.append_assoc] at heq
      have hlast : e = e' := List.singleton_inj.1 (List.append_inj_right' heq rfl)
      have hinit : journal = earlier ++ entry :: later := List.append_inj_left' heq rfl
      exact .inr ⟨hlater e (by simp [hlast]), earlier, later, hinit, hk, fun e he => hlater e (by simp [he])⟩
  · rintro (⟨h, rfl⟩ | ⟨h, earlier, later, heq, hk, hlater⟩)
    · exact ⟨journal, [], rfl, h, List.forall_mem_nil _⟩
    · refine ⟨earlier, later ++ [e], by simp [heq], hk, fun e' he => ?_⟩
      cases List.mem_append.1 he
      case inl he => exact hlater e' he
      case inr he => exact List.mem_singleton.1 he ▸ h

theorem lastOf_concat_of_kind (h : kind e) : LastOf kind (journal ++ [e]) entry ↔ e = entry := by
  simp [lastOf_concat, h]

theorem lastOf_concat_of_not_kind (h : ¬kind e) :
    LastOf kind (journal ++ [e]) entry ↔ LastOf kind journal entry := by
  simp [lastOf_concat, h]

-- If there is any entry of a kind, there is a last one.
theorem exists_lastOf (he : e ∈ journal) (h : kind e) : ∃ entry, LastOf kind journal entry := by
  induction journal using List.reverseRecOn
  case nil => cases he
  case append_singleton journal last ih =>
    by_cases hk : kind last
    case pos => exact ⟨last, (lastOf_concat_of_kind hk).2 rfl⟩
    case neg =>
      cases List.mem_append.1 he
      case inl he =>
        have ⟨entry, hlast⟩ := ih he
        exact ⟨entry, (lastOf_concat_of_not_kind hk).2 hlast⟩
      case inr he => exact absurd (List.mem_singleton.1 he ▸ h) hk

end

section

variable {α β : Type}

-- What adds up over the parts of a list is the sum over its members.
theorem eq_sum_of_append {f : List α → Nat} (h : ∀ xs ys, f (xs ++ ys) = f xs + f ys) (xs : List α) :
    f xs = (xs.map fun x => f [x]).sum := by
  induction xs
  case nil =>
    have hnil : f [] = f [] + f [] := h [] []
    exact Nat.left_eq_add.1 hnil
  case cons x rest ih =>
    have hcons : f (x :: rest) = f [x] + f rest := h [x] rest
    rw [List.map_cons, List.sum_cons, ← ih, hcons]

theorem eq_flatMap_of_append {f : List α → List β} (h : ∀ xs ys, f (xs ++ ys) = f xs ++ f ys) (xs : List α) :
    f xs = xs.flatMap fun x => f [x] := by
  induction xs
  case nil =>
    have hnil : f [] = f [] ++ f [] := h [] []
    exact List.self_eq_append_right.1 hnil
  case cons x rest ih =>
    have hcons : f (x :: rest) = f [x] ++ f rest := h [x] rest
    rw [List.flatMap_cons, ← ih, hcons]

end

theorem map_eq_of_forall₂ {α β γ : Type} {related : α → β → Prop} {f : α → γ} {g : β → γ} {xs : List α} {ys : List β}
    (h : List.Forall₂ related xs ys) (hfg : ∀ x y, related x y → f x = g y) : xs.map f = ys.map g := by
  induction h
  case nil => rfl
  case cons hxy _ ih => rw [List.map_cons, List.map_cons, hfg _ _ hxy, ih]

theorem rel_map_of_rel {α β γ δ : Type} {related : α → β → Prop} {related' : γ → δ → Prop} {f : α → γ} {g : β → δ}
    {x : Option α} {y : Option β} (h : Option.Rel related x y) (hfg : ∀ a b, related a b → related' (f a) (g b)) :
    Option.Rel related' (x.map f) (y.map g) := by
  cases h
  case none       => exact .none
  case some _ _ h => exact .some (hfg _ _ h)

theorem exists_rel_of_mem {α β : Type*} {related : α → β → Prop} {xs : List α} {ys : List β}
    (h : List.Forall₂ related xs ys) {x : α} (hx : x ∈ xs) : ∃ y ∈ ys, related x y := by
  induction h
  case nil => cases hx
  case cons y _ ys hxy _ ih =>
    cases hx
    case head         => exact ⟨y, List.mem_cons_self .., hxy⟩
    case tail hx      =>
      have ⟨y', hy', hrel⟩ := ih hx
      exact ⟨y', List.mem_cons_of_mem _ hy', hrel⟩

-- The search along a range ends at a place where it can end, or before.
theorem exists_findSome?_range {α : Type} {f : Nat → Option α} {n k : Nat} (hn : n < k) (h : f n ≠ none) :
    ∃ i ≤ n, ∃ a, f i = some a ∧ (List.range k).findSome? f = some a := by
  have hfound : (List.range (n + 1)).findSome? f ≠ none := fun hnone =>
    h (List.findSome?_eq_none_iff.1 hnone n (List.mem_range.2 (Nat.lt_succ_self n)))
  obtain ⟨a, ha⟩ := Option.ne_none_iff_exists'.1 hfound
  obtain ⟨i, hi, hia⟩ := List.exists_of_findSome?_eq_some ha
  obtain ⟨later, rfl⟩ := Nat.exists_eq_add_of_le (Nat.succ_le_of_lt hn)
  refine ⟨i, Nat.le_of_lt_succ (List.mem_range.1 hi), a, hia, ?_⟩
  rw [List.range_add, List.findSome?_append, ha, Option.some_or]

theorem mapM_of_forall_ok {α β ε : Type} {f : α → Except ε β} {g : α → β} {xs : List α}
    (h : ∀ x ∈ xs, f x = .ok (g x)) : xs.mapM f = .ok (xs.map g) := by
  induction xs
  case nil => rfl
  case cons x rest ih =>
    have ⟨hx, hrest⟩ := List.forall_mem_cons.1 h
    rw [List.mapM_cons, hx, ih hrest]
    rfl

theorem mapM_eq_some_iff {α β : Type} {f : α → Option β} {xs : List α} {ys : List β} :
    xs.mapM f = some ys ↔ List.Forall₂ (fun x y => f x = some y) xs ys := by
  induction xs generalizing ys
  case nil => simp [eq_comm]
  case cons x rest ih =>
    rw [List.mapM_cons]
    cases ys
    all_goals simp [ih, Option.bind_eq_some_iff]

-- A sequence that succeeds had a first step that did.
theorem exists_ok_of_bind {ε α β : Type} {x : Except ε α} {f : α → Except ε β} {b : β} (h : x >>= f = .ok b) :
    ∃ a, x = .ok a ∧ f a = .ok b := by
  cases x
  case ok a    => exact ⟨a, rfl, h⟩
  case error e => cases h

end StationScript
