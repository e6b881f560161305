import StationScript.Proofs.Decimals
import StationScript.Proofs.Values
import StationScript.Record.Json

namespace StationScript

open Text Double

namespace Json

variable {x : Double} {whole rest : List Char} {place : Char} {tenths : Nat} {negative : Bool}

-- A number of tenths is divided by ten without a rounding, where the quotient is a double.
theorem scale_tenths (hx : x.size = tenths / 10) (hlimit : x.size < tenthsLimit) :
    scale (.ofNat tenths) (-1) = some (.ofMagnitude false x.magnitude) := by
  have htenths : tenths < 2 * hiddenBit := by
    have hcast : (tenths : ℚ) < 2 ^ 53 := by
      rw [hx, div_lt_iff₀ (by norm_num)] at hlimit
      exact hlimit.trans (by norm_num [tenthsLimit])
    exact_mod_cast hcast
  have hten : 10 < 2 * hiddenBit := by decide
  have hnonzero : (Double.ofNat 10).magnitude ≠ 0 := by
    intro hzero
    have hsize := size_ofNat hten
    rw [size_eq, hzero, sizeOf_zero] at hsize
    norm_num at hsize
  obtain ⟨num, den, hden, hquotient, hdiv⟩ := div_of_isFinite (isFinite_ofNat htenths) (isFinite_ofNat hten) hnonzero
  rw [size_ofNat htenths, size_ofNat hten, Nat.cast_ofNat, ← hx, size_eq] at hquotient
  have hfinite : x.magnitude < infinityMagnitude := of_decide_eq_true (isFinite_of_size_lt hlimit (by decide))
  rw [scale, if_pos (by decide), if_neg (by decide)]
  have hscale : ten ((-1 : Int).natAbs : Nat) = 10 := rfl
  rw [hscale, hdiv, nearest, nearestMagnitude_of_eq hden hquotient hfinite, Double.ofNat, Double.ofNat,
    isNegative_nearest, isNegative_nearest]
  rfl

theorem scaled_tenths (hx : x.size = tenths / 10) (hlimit : x.size < tenthsLimit) (rest : List Char) :
    scaled x.isNegative tenths (-1) rest = .ok (.double x, rest) := by
  have hsign : (if x.isNegative then (ofMagnitude false x.magnitude).neg else ofMagnitude false x.magnitude) = x := by
    have hx := ofMagnitude_magnitude x
    cases hnegative : x.isNegative
    case false => rwa [hnegative] at hx
    case true =>
      rw [hnegative] at hx
      rw [if_pos rfl, neg, isNegative_ofMagnitude x.magnitude_lt, magnitude_ofMagnitude x.magnitude_lt]
      exact hx
  rw [scaled, scale_tenths hx hlimit]
  simp only [hsign]

-- Digits with one place are gathered to a number of tenths.
theorem readRest_tenths (h : SpellTenths whole place tenths) (hword : tenths < wordLimit) (hrest : Follows rest) :
    readRest negative whole ('.' :: place :: rest) = scaled negative tenths (-1) rest := by
  have hvalue : 10 * digitsValue whole + digitsValue [place] = tenths := by
    have happend := digitsValue_append whole [place]
    rwa [h.value, List.length_singleton, Nat.pow_one, eq_comm] at happend
  have hwhole : gather 0 whole = (digitsValue whole, 0) := by
    have hgather : gather 0 whole = (10 ^ whole.length * 0 + digitsValue whole, 0) :=
      gather_of_lt (by omega)
    rwa [Nat.mul_zero, Nat.zero_add] at hgather
  have hplace : gather (digitsValue whole) [place] = (tenths, 0) := by
    have hgather : gather (digitsValue whole) [place] =
        (10 ^ [place].length * digitsValue whole + digitsValue [place], 0) :=
      gather_of_lt (by rwa [List.length_singleton, Nat.pow_one, hvalue])
    rwa [List.length_singleton, Nat.pow_one, hvalue] at hgather
  have hdigit : ∀ c ∈ [place], isDigit c := fun c hc => List.mem_singleton.1 hc ▸ h.placeDigit
  have hends := hrest.endsDigits
  have hrun : (place :: rest).takeWhile isDigit = [place] := takeWhile_digits hdigit hends
  have hbehind : (place :: rest).dropWhile isDigit = rest := dropWhile_digits hdigit hends
  have htail : readTail negative tenths (-1) rest = scaled negative tenths (-1) rest := by
    obtain ⟨c, after, rfl, hc⟩ := hrest
    rcases hc with rfl | rfl | rfl <;> rfl
  simp only [readRest, readPlaces, hwhole, hrun, hplace, hbehind]
  exact htail

theorem readNumber_tenths (h : SpellTenths whole place tenths) (hword : tenths < wordLimit) (hrest : Follows rest) :
    readNumber negative (whole ++ '.' :: place :: rest) = scaled negative tenths (-1) rest := by
  have hread : readRest negative whole ('.' :: place :: rest) = scaled negative tenths (-1) rest :=
    readRest_tenths h hword hrest
  have hpoint : EndsDigits ('.' :: place :: rest) := endsDigits_cons rfl _
  rcases h.leading with rfl | ⟨hne, hhead⟩
  case inl => exact hread
  case inr =>
    obtain ⟨c, cs, rfl⟩ := List.exists_cons_of_ne_nil hne
    have ⟨hc, hcs⟩ := List.forall_mem_cons.1 h.wholeDigits
    rw [List.cons_append, readNumber]
    · rw [if_pos hc, takeWhile_digits hcs hpoint, dropWhile_digits hcs hpoint, hread]
    · rintro rfl
      exact hhead rfl

theorem scalar_tenths (h : SpellTenths whole place tenths) (hword : tenths < wordLimit) (hrest : Follows rest) :
    scalar ((if negative then ['-'] else []) ++ (whole ++ '.' :: place :: rest)) =
      (scaled negative tenths (-1) rest).map fun r => (r.1.found, r.2) := by
  have hread : readNumber negative (whole ++ '.' :: place :: rest) = scaled negative tenths (-1) rest :=
    readNumber_tenths h hword hrest
  cases negative
  case true =>
    rw [if_pos rfl, List.singleton_append, scalar, hread]
    cases scaled true tenths (-1) rest <;> rfl
  case false =>
    obtain ⟨c, cs, rfl⟩ := List.exists_cons_of_ne_nil h.whole_ne_nil
    have hc : isDigit c := h.wholeDigits c (List.mem_cons_self ..)
    rw [if_neg Bool.false_ne_true, List.nil_append, List.cons_append, scalar_of_isDigit hc]
    rw [List.cons_append] at hread
    rw [hread]

theorem plain_double (hlimit : x.size < tenthsLimit) : (Value.double x).plain = compact.text x :=
  if_pos (isFinite_of_size_lt hlimit (by decide))

theorem tenths_lt_wordLimit (hx : x.size = tenths / 10) (hlimit : x.size < tenthsLimit) : tenths < wordLimit := by
  have hcast : (tenths : ℚ) < wordLimit := by
    rw [hx, div_lt_iff₀ (by norm_num)] at hlimit
    exact hlimit.trans (by norm_num [tenthsLimit, wordLimit])
  exact_mod_cast hcast

-- A double with whole tenths is read back.
theorem reads_double (hx : x.size = tenths / 10) (hlimit : x.size < tenthsLimit) :
    Kind.double.Reads (Value.double x).plain (.double x) := by
  obtain ⟨whole, place, hspell, htext⟩ := exists_text hx hlimit
  have hscalar (rest : List Char) (hrest : Follows rest) :
      scalar ((compact.text x).toList ++ rest) = .ok (.double x, rest) := by
    rw [htext, List.append_assoc, List.append_assoc]
    exact (scalar_tenths hspell (tenths_lt_wordLimit hx hlimit) hrest).trans (by rw [scaled_tenths hx hlimit]; rfl)
  obtain ⟨first, later, hfirst⟩ := List.exists_cons_of_ne_nil hspell.whole_ne_nil
  have hdigit : isDigit first := hspell.wholeDigits first (hfirst ▸ List.mem_cons_self ..)
  rw [plain_double hlimit]
  cases hnegative : x.isNegative
  case true =>
    rw [hnegative, if_pos rfl, List.singleton_append] at htext
    exact Kind.reads_of_scalar (.double x) htext rfl (by decide) hscalar rfl
  case false =>
    rw [hnegative, if_neg Bool.false_ne_true, List.nil_append, hfirst, List.cons_append] at htext
    have hlist : first ≠ '[' := by
      rintro rfl
      cases hdigit
    exact Kind.reads_of_scalar (.double x) htext (isSpace_of_isDigit hdigit) hlist hscalar rfl

theorem visible_double (hx : x.size = tenths / 10) (hlimit : x.size < tenthsLimit) :
    Visible (Value.double x).plain.toList := by
  obtain ⟨whole, place, hspell, htext⟩ := exists_text hx hlimit
  have hsign : Visible (if x.isNegative then ['-'] else []) := by
    split
    · exact visible_cons.2 ⟨by decide, visible_nil⟩
    · exact visible_nil
  have hplace : Visible [place] := visible_of_digits fun c hc => List.mem_singleton.1 hc ▸ hspell.placeDigit
  rw [plain_double hlimit, htext]
  exact visible_append.2 ⟨hsign, visible_append.2 ⟨visible_of_digits hspell.wholeDigits,
    visible_cons.2 ⟨by decide, hplace⟩⟩⟩

def Field.ofDouble (name : String) (x : Double) (hx : x.size = tenths / 10) (hlimit : x.size < tenthsLimit) : Field :=
  ⟨name, .double, .double x, .double x, reads_double hx hlimit, reads_double hx hlimit⟩

end Json

namespace RunSummary

variable {s : RunSummary}

-- Totals that a machine can hold, of a run that ended so many halves of a second after the start of 1970, in less than
-- nine million years.
structure Holdable (s : RunSummary) : Prop where
  total     : s.total < wordLimit
  succeeded : s.succeeded < wordLimit
  failed    : s.failed < wordLimit
  cancelled : s.cancelled < wordLimit
  elapsed   : s.elapsed < wordLimit
  timestamp : ∃ halves : Nat, halves < 2 ^ 49 ∧ s.timestamp.value = halves / 2

namespace Holdable

theorem size_timestamp (h : s.Holdable) : ∃ tenths : Nat, s.timestamp.size = tenths / 10 := by
  have ⟨halves, _, hvalue⟩ := h.timestamp
  refine ⟨5 * halves, ?_⟩
  rw [← abs_value, hvalue, abs_of_nonneg (by positivity)]
  push_cast
  ring

theorem size_timestamp_lt (h : s.Holdable) : s.timestamp.size < tenthsLimit := by
  have ⟨halves, hlt, hvalue⟩ := h.timestamp
  have hcast : (halves : ℚ) < 2 ^ 49 := by exact_mod_cast hlt
  rw [← abs_value, hvalue, abs_of_nonneg (by positivity), div_lt_iff₀ (by norm_num)]
  exact hcast.trans_eq (by norm_num [tenthsLimit])

end Holdable

-- What the fields of the totals are, and that they are read back.
theorem ofText_render (h : s.Holdable) (form : Json.Form) : ofText (form.render s.toObject) = .ok s := by
  obtain ⟨tenths, htenths⟩ := h.size_timestamp
  let fields : List Json.Field :=
    [.ofWord "total" "usize" s.total h.total, .ofWord "succeeded" "usize" s.succeeded h.succeeded,
     .ofWord "failed" "usize" s.failed h.failed, .ofWord "cancelled" "usize" s.cancelled h.cancelled,
     .ofWord "elapsed_ms" "u64" s.elapsed h.elapsed, .ofDouble "timestamp" s.timestamp htenths h.size_timestamp_lt]
  have hobject : s.toObject = fields.map Json.Field.member := rfl
  have hshape : shape.fields = fields.map Json.Field.declaration := rfl
  have hnames : (fields.map Json.Field.name).Nodup := by
    simp [fields, Json.Field.ofWord, Json.Field.ofDouble]
  rw [ofText, hobject, Json.Shape.read_render hshape hnames (List.cons_ne_nil _ _)]
  rfl

theorem visible_compact (h : s.Holdable) : Json.Visible s.toObject.compact.toList := by
  have ⟨_, htenths⟩ := h.size_timestamp
  refine Json.Object.visible_compact ?_
  simp only [toObject, List.forall_mem_cons]
  exact ⟨Json.visible_natural _, Json.visible_natural _, Json.visible_natural _, Json.visible_natural _,
    Json.visible_natural _, Json.visible_double htenths h.size_timestamp_lt, List.forall_mem_nil _⟩

-- The totals of a run are read back from one line without control characters, and from several lines.
theorem totals_read_back (h : s.Holdable) :
    Json.Visible s.toObject.compact.toList ∧ ofText s.toObject.compact = .ok s ∧ ofText s.toObject.pretty = .ok s :=
  ⟨visible_compact h, ofText_render h .plain, ofText_render h .pretty⟩

-- The greatest numbers of all, and the last half of a second.
theorem totals_read_back_of_greatest :
    let n := 18446744073709551615
    let s : RunSummary := ⟨n, n, n, n, n, .ofHalves 562949953421311⟩
    Json.Visible s.toObject.compact.toList ∧ ofText s.toObject.compact = .ok s ∧ ofText s.toObject.pretty = .ok s := by
  have hword : 18446744073709551615 < wordLimit := by decide
  exact totals_read_back ⟨hword, hword, hword, hword, hword, 562949953421311, by decide, value_ofHalves (by decide)⟩

end RunSummary

end StationScript
