import Mathlib.Tactic.Ring
import StationScript.Proofs.Numerals
import StationScript.Proofs.Objects

namespace StationScript.Json

open Text

section

variable {cs rest : List Char} {c : Char} {significand n : Nat}

theorem Follows.endsDigits (h : Follows rest) : EndsDigits rest := by
  obtain ⟨c, after, rfl, h⟩ := h
  refine endsDigits_cons ?_ after
  rcases h with rfl | rfl | rfl <;> rfl

-- Digits are gathered, as long as what they spell fits a word.
theorem gather_of_lt (h : 10 ^ cs.length * significand + digitsValue cs < wordLimit) :
    gather significand cs = (10 ^ cs.length * significand + digitsValue cs, 0) := by
  induction cs generalizing significand
  case nil => simp [gather, digitsValue]
  case cons c rest ih =>
    have hvalue : 10 ^ (c :: rest).length * significand + digitsValue (c :: rest) =
        10 ^ rest.length * (10 * significand + digitValue c) + digitsValue rest := by
      have happend := digitsValue_append [c] rest
      have hsingle : digitsValue [c] = digitValue c := by simp [digitsValue]
      rw [List.singleton_append, hsingle] at happend
      rw [happend, List.length_cons]
      ring
    rw [hvalue] at h ⊢
    have hnext : 10 * significand + digitValue c < wordLimit := by
      have hpos : 0 < 10 ^ rest.length := Nat.pow_pos (by decide)
      exact Nat.lt_of_le_of_lt (Nat.le_mul_of_pos_left _ hpos) (Nat.lt_of_le_of_lt (Nat.le_add_right _ _) h)
    rw [gather, if_pos hnext, ih h]

-- Where neither a point nor an exponent follows, the number is whole.
theorem readRest_of_follows (h : digitsValue cs < wordLimit) (hrest : Follows rest) :
    readRest false cs rest = .ok (.natural (digitsValue cs), rest) := by
  have hgather : gather 0 cs = (10 ^ cs.length * 0 + digitsValue cs, 0) :=
    gather_of_lt (by rwa [Nat.mul_zero, Nat.zero_add])
  rw [Nat.mul_zero, Nat.zero_add] at hgather
  obtain ⟨c, after, rfl, hc⟩ := hrest
  rcases hc with rfl | rfl | rfl <;> simp [readRest, hgather, whole]

theorem readNumber_repr (h : n < wordLimit) (hrest : Follows rest) :
    readNumber false ((Nat.repr n).toList ++ rest) = .ok (.natural n, rest) := by
  have hdigits : ∀ c ∈ Nat.toDigits 10 n, isDigit c := fun _ => isDigit_of_mem_toDigits
  have hends := hrest.endsDigits
  rw [repr_toList]
  by_cases hn : n = 0
  case pos =>
    obtain ⟨c, after, rfl, hc⟩ := id hrest
    have hread : readRest false ['0'] (c :: after) = .ok (.natural (digitsValue ['0']), c :: after) :=
      readRest_of_follows (by decide) hrest
    have hvalue : digitsValue ['0'] = 0 := rfl
    rw [hvalue] at hread
    simpa [hn, readNumber, hends c rfl] using hread
  case neg =>
    obtain ⟨c, cs, hcs⟩ := List.exists_cons_of_ne_nil (Nat.toDigits_ne_nil (n := n) (b := 10))
    have hvalue : digitsValue (c :: cs) = n := hcs ▸ digitsValue_toDigits n
    rw [hcs] at hdigits ⊢
    have ⟨hc, hlater⟩ := List.forall_mem_cons.1 hdigits
    have hzero : c ≠ '0' := by
      have hhead := head?_toDigits hn
      rw [hcs] at hhead
      simpa using hhead
    rw [List.cons_append, readNumber]
    · rw [if_pos hc, takeWhile_digits hlater hends, dropWhile_digits hlater hends,
        readRest_of_follows (by rwa [hvalue]) hrest, hvalue]
    · exact hzero

theorem isSpace_of_isDigit (h : isDigit c) : isSpace c = false := by
  have hblank := isBlank_of_isDigit h
  by_contra hspace
  simp only [Bool.not_eq_false, isSpace, Bool.or_eq_true, beq_iff_eq] at hspace
  rcases hspace with ((rfl | rfl) | rfl) | rfl <;> cases hblank

theorem scalar_of_isDigit (h : isDigit c) (cs : List Char) :
    scalar (c :: cs) = (readNumber false (c :: cs)).map fun r => (r.1.found, r.2) := by
  unfold scalar
  split
  -- A number does not begin like any of the other values.
  case h_8 c _ _ _ _ _ _ _ _ heq =>
    cases heq
    rw [if_pos h]
    cases readNumber false (c :: cs) <;> rfl
  case h_9 => contradiction
  all_goals
    rename_i heq
    cases heq
    cases h

theorem reads_word (name : String) (h : n < wordLimit) : (Kind.word name).Reads (Nat.repr n) (.word n) := by
  obtain ⟨c, cs, hcs⟩ := List.exists_cons_of_ne_nil (Nat.toDigits_ne_nil (n := n) (b := 10))
  have htext : (Nat.repr n).toList = c :: cs := by rw [repr_toList, hcs]
  have hc : isDigit c := isDigit_of_mem_toDigits (hcs ▸ List.mem_cons_self ..)
  have hlist : c ≠ '[' := by
    rintro rfl
    cases hc
  refine Kind.reads_of_scalar (.integer n) htext (isSpace_of_isDigit hc) hlist (fun rest hrest => ?_) rfl
  have hread := readNumber_repr h hrest
  rw [htext, List.cons_append] at hread ⊢
  rw [scalar_of_isDigit hc, hread]
  rfl

end

theorem reads_boolean (b : Bool) : Kind.boolean.Reads (Value.boolean b).plain (.boolean b) := by
  cases b
  case false => exact Kind.reads_of_scalar (.boolean false) rfl rfl (by decide) (fun _ _ => rfl) rfl
  case true  => exact Kind.reads_of_scalar (.boolean true) rfl rfl (by decide) (fun _ _ => rfl) rfl

theorem reads_instant {t : Instant} {text : String} (h : Instant.ofText text = .ok t) :
    Kind.instant.Reads (literal text) (.instant t) :=
  reads_literal (by rw [Kind.ofFound, h])

namespace Field

def ofWord (name kind : String) (n : Nat) (h : n < wordLimit) : Field :=
  ⟨name, .word kind, .natural n, .word n, reads_word kind h, reads_word kind h⟩

def ofBoolean (name : String) (b : Bool) : Field :=
  ⟨name, .boolean, .boolean b, .boolean b, reads_boolean b, reads_boolean b⟩

-- An instant is written as a text.
def ofInstant (name text : String) (t : Instant) (h : Instant.ofText text = .ok t) : Field :=
  ⟨name, .instant, .text text, .instant t, reads_instant h, reads_instant h⟩

end Field

-- A text that a line can hold: there are no control characters in it.
def Visible (cs : List Char) : Prop :=
  ∀ c ∈ cs, 0x20 ≤ c.toNat

section

variable {cs ds gap : List Char} {c : Char} {items : List (List Char)} {o : Object}

theorem visible_append : Visible (cs ++ ds) ↔ Visible cs ∧ Visible ds :=
  List.forall_mem_append

theorem visible_cons : Visible (c :: cs) ↔ 0x20 ≤ c.toNat ∧ Visible cs :=
  List.forall_mem_cons

theorem visible_nil : Visible [] :=
  List.forall_mem_nil _

theorem visible_of_digits (h : ∀ c ∈ cs, isDigit c) : Visible cs := by
  intro c hc
  have hdigit := h c hc
  simp only [isDigit, Bool.and_eq_true, decide_eq_true_eq, Char.le_def, UInt32.le_iff_toNat_le] at hdigit
  have hlow : 48 ≤ c.toNat := hdigit.left
  omega

theorem visible_digitChar {n : Nat} (h : n < 16) : 0x20 ≤ (Nat.digitChar n).toNat := by
  have hall : ∀ m : Fin 16, 0x20 ≤ (Nat.digitChar m).toNat := by decide
  exact hall ⟨n, h⟩

-- A control character is escaped, by characters that are none.
theorem visible_writeChar (c : Char) : Visible (writeChar c) := by
  unfold writeChar
  split
  iterate 7 exact List.forall_mem_iff_forall_getElem.2 (by decide)
  split
  case isTrue hc =>
    have h₁ := visible_digitChar (show c.toNat / 16 < 16 by omega)
    have h₂ := visible_digitChar (show c.toNat % 16 < 16 by omega)
    simp only [visible_cons]
    exact ⟨by decide, by decide, by decide, by decide, h₁, h₂, visible_nil⟩
  case isFalse hc => exact visible_cons.2 ⟨Nat.not_lt.1 hc, visible_nil⟩

theorem visible_literal (s : String) : Visible (literal s).toList := by
  rw [literal_toList]
  refine visible_cons.2 ⟨by decide, visible_append.2 ⟨fun c hc => ?_, visible_cons.2 ⟨by decide, visible_nil⟩⟩⟩
  have ⟨d, _, hd⟩ := List.mem_flatMap.1 hc
  exact visible_writeChar d c hd

theorem visible_listed (hgap : Visible gap) (h : ∀ item ∈ items, Visible item) (first : Bool) :
    Visible (listed gap first items) := by
  induction items generalizing first
  case nil => exact visible_nil
  case cons item rest ih =>
    have ⟨hitem, hrest⟩ := List.forall_mem_cons.1 h
    have hcomma : Visible (if first then [] else [',']) := by
      split
      · exact visible_nil
      · exact visible_cons.2 ⟨by decide, visible_nil⟩
    exact visible_append.2 ⟨visible_append.2 ⟨hcomma, visible_append.2 ⟨hgap, hitem⟩⟩, ih hrest false⟩

theorem visible_natural (n : Nat) : Visible (Value.natural n).plain.toList := by
  refine visible_of_digits fun c hc => isDigit_of_mem_toDigits (n := n) ?_
  rwa [← repr_toList]

theorem visible_boolean (b : Bool) : Visible (Value.boolean b).plain.toList := by
  cases b <;> exact List.forall_mem_iff_forall_getElem.2 (by decide)

-- An object is written in one line if its values are.
theorem Object.visible_compact (h : ∀ f ∈ o, Visible f.2.plain.toList) : Visible o.compact.toList := by
  have hfields : ∀ item ∈ (o.map fun f => literal f.1 ++ ":" ++ f.2.plain).map String.toList, Visible item := by
    simp only [List.mem_map, forall_exists_index, and_imp, forall_apply_eq_imp_iff₂, String.toList_append]
    intro f hf
    exact visible_append.2 ⟨visible_append.2 ⟨visible_literal _, visible_cons.2 ⟨by decide, visible_nil⟩⟩, h f hf⟩
  have hlisted := visible_listed visible_nil hfields true
  rw [Object.compact, String.toList_append, String.toList_append, separated_comma_toList]
  exact visible_append.2 ⟨visible_append.2 ⟨visible_cons.2 ⟨by decide, visible_nil⟩, hlisted⟩,
    visible_cons.2 ⟨by decide, visible_nil⟩⟩

end

end StationScript.Json
