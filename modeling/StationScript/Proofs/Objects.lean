import StationScript.Json.Object
import StationScript.Json.Reader
import StationScript.Proofs.Lists

namespace StationScript.Json

section

variable {gap close rest : List Char} {first : Bool}

theorem skipSpace_append {c : Char} (hgap : ∀ c ∈ gap, isSpace c) (hc : isSpace c = false) (rest : List Char) :
    skipSpace (gap ++ c :: rest) = c :: rest := by
  rw [skipSpace, List.dropWhile_append_of_pos hgap, List.dropWhile_cons_of_neg (by simp [hc])]

theorem skipSpace_cons {c : Char} (hc : isSpace c = false) (rest : List Char) : skipSpace (c :: rest) = c :: rest :=
  skipSpace_append (List.forall_mem_nil _) hc rest

-- Items with a comma between each two, and a gap in front of each. They are the first ones, or follow others.
def listed (gap : List Char) (first : Bool) : List (List Char) → List Char
  | []           => []
  | item :: rest => (if first then [] else [',']) ++ (gap ++ item) ++ listed gap false rest

theorem listed_false_cons {items : List (List Char)} :
    listed gap false (item :: items) = ',' :: listed gap true (item :: items) :=
  rfl

theorem length_le_length_listed (gap : List Char) (first : Bool) {items : List (List Char)}
    (h : ∀ item ∈ items, item ≠ []) : items.length ≤ (listed gap first items).length := by
  induction items generalizing first
  case nil => exact Nat.zero_le _
  case cons item rest ih =>
    have ⟨hitem, hrest⟩ := List.forall_mem_cons.1 h
    have hpos := List.length_pos_of_ne_nil hitem
    have hlen := ih false hrest
    simp only [listed, List.length_append, List.length_cons]
    omega

-- The gap may be shared between what separates the items and what they begin with.
theorem separated_toList {separator : String} {outer : List Char} (hseparator : separator.toList = ',' :: outer)
    (indent : String) {items : List String} (hne : items ≠ []) :
    outer ++ (separated separator (items.map (indent ++ ·))).toList =
      listed (outer ++ indent.toList) true (items.map String.toList) := by
  induction items
  case nil => exact absurd rfl hne
  case cons item rest ih =>
    cases rest
    case nil => simp [separated, listed]
    case cons next rest =>
      have hrest := ih (List.cons_ne_nil next rest)
      simp only [List.map_cons, separated, String.intercalate_cons_cons, String.toList_append, hseparator] at hrest ⊢
      rw [listed, listed_false_cons, ← hrest]
      simp

theorem separated_comma_toList (items : List String) :
    (separated "," items).toList = listed [] true (items.map String.toList) := by
  cases items
  case nil => rfl
  case cons item rest =>
    have hcomma : ",".toList = ',' :: [] := rfl
    have h := separated_toList hcomma "" (List.cons_ne_nil item rest)
    simpa using h

theorem block_toList (opening closing indent : String) (items : List String) :
    (block opening closing indent items).toList =
      opening.toList ++ (listed ('\n' :: (indent ++ "  ").toList) true (items.map String.toList) ++
        ((if items.isEmpty then [] else '\n' :: indent.toList) ++ closing.toList)) := by
  cases items
  case nil => simp [block, listed]
  case cons item rest =>
    have hcomma : ",\n".toList = ',' :: ['\n'] := rfl
    have h := separated_toList hcomma (indent ++ "  ") (List.cons_ne_nil item rest)
    rw [List.singleton_append, List.singleton_append] at h
    rw [← h, block]
    simp

theorem literal_toList (s : String) : (literal s).toList = '"' :: (writeBody s.toList ++ ['"']) := by
  simp [literal]

-- What may follow a value within an object.
def Follows (rest : List Char) : Prop :=
  ∃ c after, rest = c :: after ∧ (c = ',' ∨ c = '\n' ∨ c = '\x7d')

-- A text is read as a datum, wherever it may stand as a value.
def Kind.Reads (k : Kind) (text : String) (d : Datum) : Prop :=
  ∀ gap rest, (∀ c ∈ gap, isSpace c) → Follows rest → k.read (gap ++ (text.toList ++ rest)) = .ok (d, rest)

section

variable {k : Kind} {found : Found} {d : Datum} {c : Char} {cs : List Char}

theorem Kind.readScalar_cons (hc : isSpace c = false) (hscalar : scalar (c :: cs) = .ok (found, rest))
    (h : k.ofFound found = .ok d) : k.readScalar (c :: cs) = .ok (d, rest) := by
  rw [Kind.readScalar, skipSpace_cons hc, hscalar]
  simp [bind, Except.bind, h]

-- A plain value is read from a text that does not begin like a list.
theorem Kind.reads_of_scalar {text : String} (found : Found) (htext : text.toList = c :: cs) (hc : isSpace c = false)
    (hlist : c ≠ '[') (hscalar : ∀ rest, Follows rest → scalar (text.toList ++ rest) = .ok (found, rest))
    (h : k.ofFound found = .ok d) : k.Reads text d := by
  intro gap rest hgap hrest
  have hscalar := hscalar rest hrest
  rw [htext, List.cons_append] at hscalar ⊢
  have hskip : skipSpace (gap ++ c :: (cs ++ rest)) = c :: (cs ++ rest) := skipSpace_append hgap hc _
  rw [Kind.read, hskip]
  · exact Kind.readScalar_cons hc hscalar h
  · intro _ _ heq
    rw [hskip] at heq
    exact absurd (List.cons.inj heq).left hlist

end

theorem scalar_literal (s : String) (rest : List Char) : scalar ((literal s).toList ++ rest) = .ok (.text s, rest) := by
  rw [literal_toList, List.cons_append, List.append_assoc, List.singleton_append, scalar, readBody_writeBody]
  simp [bind, Except.bind, pure, Except.pure]

theorem readScalar_literal (s : String) (rest : List Char) :
    Kind.text.readScalar ((literal s).toList ++ rest) = .ok (.text s, rest) := by
  have hscalar := scalar_literal s rest
  rw [literal_toList, List.cons_append] at hscalar ⊢
  exact Kind.readScalar_cons rfl hscalar rfl

-- A literal is read as whatever its text is as a datum of the kind.
theorem reads_literal {k : Kind} {s : String} {d : Datum} (h : k.ofFound (.text s) = .ok d) :
    k.Reads (literal s) d :=
  Kind.reads_of_scalar (.text s) (literal_toList s) rfl (by decide) (fun rest _ => scalar_literal s rest) h

theorem nextElement_literal (hgap : ∀ c ∈ gap, isSpace c) (s : String) (rest : List Char) :
    nextElement first ((if first then [] else [',']) ++ (gap ++ ((literal s).toList ++ rest))) =
      .ok (some ((literal s).toList ++ rest)) := by
  rw [literal_toList, List.cons_append]
  cases first
  case true =>
    simp only [nextElement, if_true, List.nil_append, skipSpace_append hgap (c := '"') rfl]
    rfl
  case false =>
    simp only [nextElement, Bool.false_eq_true, if_false, List.singleton_append, skipSpace_cons (c := ',') rfl,
      skipSpace_append hgap (c := '"') rfl]
    rfl

-- Every text takes one round.
theorem texts_listed (hgap : ∀ c ∈ gap, isSpace c) (hclose : ∀ c ∈ close, isSpace c) {l : List String} {fuel : Nat}
    (hfuel : l.length < fuel) (first : Bool) (rest : List Char) :
    texts fuel first (listed gap first (l.map fun s => (literal s).toList) ++ (close ++ ']' :: rest)) =
      .ok (l, rest) := by
  induction l generalizing first fuel
  case nil =>
    obtain ⟨fuel, rfl⟩ := Nat.exists_eq_add_one_of_ne_zero (Nat.ne_of_gt hfuel)
    rw [texts, List.map_nil, listed, List.nil_append, nextElement, endList, skipSpace_append hclose rfl]
    rfl
  case cons s later ih =>
    obtain ⟨fuel, rfl⟩ := Nat.exists_eq_add_one_of_ne_zero (Nat.ne_of_gt (Nat.zero_lt_of_lt hfuel))
    have hlater := ih (Nat.lt_of_succ_lt_succ hfuel) false
    rw [texts, List.map_cons, listed, List.append_assoc, List.append_assoc, List.append_assoc,
      nextElement_literal hgap]
    simp only [bind, Except.bind, readScalar_literal, hlater]
    rfl

-- A list of texts is read from any listing of their literals.
theorem read_texts_listed (hgap : ∀ c ∈ gap, isSpace c) (hclose : ∀ c ∈ close, isSpace c) {l : List String}
    {text : String}
    (htext : text.toList = '[' :: (listed gap true (l.map fun s => (literal s).toList) ++ (close ++ [']']))) :
    Kind.texts.Reads text (.texts l) := by
  intro outer rest houter _
  have hfuel : l.length <
      (listed gap true (l.map fun s => (literal s).toList) ++ (close ++ ']' :: rest)).length + 1 := by
    have hliterals : ∀ item ∈ l.map fun s => (literal s).toList, item ≠ [] := by simp [literal_toList]
    have hlen := length_le_length_listed gap true hliterals
    simp at hlen ⊢
    omega
  have hskip : skipSpace (outer ++ (text.toList ++ rest)) =
      '[' :: (listed gap true (l.map fun s => (literal s).toList) ++ (close ++ ']' :: rest)) := by
    rw [htext, List.cons_append, skipSpace_append houter rfl, List.append_assoc, List.append_assoc]
    rfl
  simp only [Kind.read, hskip, texts_listed hgap hclose hfuel]
  rfl

theorem reads_texts_plain (l : List String) : Kind.texts.Reads (Value.texts l).plain (.texts l) := by
  have htext : (Value.texts l).plain.toList =
      '[' :: (listed [] true (l.map fun s => (literal s).toList) ++ ([] ++ [']'])) := by
    simp [Value.plain, separated_comma_toList, Function.comp_def]
  exact read_texts_listed (List.forall_mem_nil _) (List.forall_mem_nil _) htext

theorem reads_texts_pretty (l : List String) : Kind.texts.Reads (Value.texts l).pretty (.texts l) := by
  have htext := block_toList "[" "]" "  " (l.map literal)
  rw [List.map_map] at htext
  refine read_texts_listed (List.all_eq_true.1 rfl) ?_ htext
  split
  · exact List.forall_mem_nil _
  · exact List.all_eq_true.1 rfl

end

-- A field of an object, of which the value is read as a datum in whatever form it is written.
structure Field where
  name : String
  kind : Kind
  value : Value
  datum : Datum
  plain : kind.Reads value.plain datum
  pretty : kind.Reads value.pretty datum

namespace Field

def ofText (name s : String) : Field :=
  ⟨name, .text, .text s, .text s, reads_literal rfl, reads_literal rfl⟩

def ofTexts (name : String) (l : List String) : Field :=
  ⟨name, .texts, .texts l, .texts l, reads_texts_plain l, reads_texts_pretty l⟩

-- The field as a member of an object, of a shape, and of what was read.
def member (f : Field) : String × Value :=
  (f.name, f.value)

def declaration (f : Field) : String × Kind :=
  (f.name, f.kind)

def entry (f : Field) : String × Datum :=
  (f.name, f.datum)

end Field

-- How an object is written: in one line, or with a field in each line.
inductive Form
  | plain
  | pretty

namespace Form

variable {form : Form} {f : Field} {fields later : List Field} {s : Shape} {seen : List (String × Datum)} {fuel : Nat}
  {first : Bool}

def render : Form → Object → String
  | plain  => Object.compact
  | pretty => Object.pretty

def value : Form → Value → String
  | plain  => Value.plain
  | pretty => Value.pretty

-- The white space in front of each field, behind its colon, and in front of the closing brace.
def gap : Form → List Char
  | plain  => []
  | pretty => ['\n', ' ', ' ']

def colonGap : Form → List Char
  | plain  => []
  | pretty => [' ']

def close : Form → List Char
  | plain  => []
  | pretty => ['\n']

def field (form : Form) (f : Field) : List Char :=
  '"' :: (writeBody f.name.toList ++ '"' :: ':' :: (form.colonGap ++ (form.value f.value).toList))

theorem isSpace_of_mem_gap : ∀ c ∈ form.gap, isSpace c := by
  cases form <;> exact List.all_eq_true.1 rfl

theorem isSpace_of_mem_colonGap : ∀ c ∈ form.colonGap, isSpace c := by
  cases form <;> exact List.all_eq_true.1 rfl

theorem isSpace_of_mem_close : ∀ c ∈ form.close, isSpace c := by
  cases form <;> exact List.all_eq_true.1 rfl

theorem read_value (form : Form) (f : Field) {rest : List Char} (h : Follows rest) :
    f.kind.read (form.colonGap ++ ((form.value f.value).toList ++ rest)) = .ok (f.datum, rest) := by
  cases form
  case plain  => exact f.plain _ rest isSpace_of_mem_colonGap h
  case pretty => exact f.pretty _ rest isSpace_of_mem_colonGap h

theorem render_toList (hne : fields ≠ []) : (form.render (fields.map Field.member)).toList =
    '\x7b' :: (listed form.gap true (fields.map form.field) ++ (form.close ++ ['\x7d'])) := by
  cases form
  case plain =>
    have hfields : fields.map plain.field =
        (fields.map fun f => literal f.name ++ ":" ++ f.value.plain).map String.toList := by
      simp [Function.comp_def, field, value, colonGap, literal_toList]
    rw [hfields, gap, ← separated_comma_toList, render, Object.compact, List.map_map, String.toList_append,
      String.toList_append]
    rfl
  case pretty =>
    have hfields : fields.map pretty.field =
        (fields.map fun f => literal f.name ++ ": " ++ f.value.pretty).map String.toList := by
      simp [Function.comp_def, field, value, colonGap, literal_toList]
    rw [hfields, render, Object.pretty, List.map_map, block_toList, if_neg (by simpa using hne)]
    rfl

-- What follows a value is the next field or the end of the object.
theorem follows_field (form : Form) (later : List Field) (rest : List Char) :
    Follows (listed form.gap false (later.map form.field) ++ (form.close ++ '\x7d' :: rest)) := by
  cases later
  case nil =>
    cases form
    case plain  => exact ⟨'\x7d', _, rfl, by decide⟩
    case pretty => exact ⟨'\n', _, rfl, by decide⟩
  case cons f rest => exact ⟨',', _, rfl, by decide⟩

theorem nextName_field (rest : List Char) :
    nextName first ((if first then [] else [',']) ++ (form.gap ++ (form.field f ++ rest))) =
      .ok (some (writeBody f.name.toList ++
        '"' :: ':' :: (form.colonGap ++ ((form.value f.value).toList ++ rest)))) := by
  simp only [field, List.cons_append, List.append_assoc]
  cases first
  case true =>
    simp only [nextName, if_true, List.nil_append, skipSpace_append isSpace_of_mem_gap (c := '"') rfl]
  case false =>
    simp only [nextName, Bool.false_eq_true, if_false, List.singleton_append, skipSpace_cons (c := ',') rfl,
      skipSpace_append isSpace_of_mem_gap (c := '"') rfl]

-- Every field takes one round, and the names that are left are none that were seen.
theorem members_listed (form : Form) (hkinds : ∀ f ∈ fields, s.fields.lookup f.name = some f.kind)
    (hnames : (fields.map Field.name).Nodup) (hseen : ∀ f ∈ fields, seen.lookup f.name = none)
    (hfuel : fields.length < fuel) (first : Bool) (rest : List Char) :
    members.go s fuel first seen
        (listed form.gap first (fields.map form.field) ++ (form.close ++ '\x7d' :: rest)) =
      .ok ((fields.map Field.entry).reverse ++ seen, rest) := by
  induction fields generalizing first seen fuel
  case nil =>
    obtain ⟨fuel, rfl⟩ := Nat.exists_eq_add_one_of_ne_zero (Nat.ne_of_gt hfuel)
    have hskip : skipSpace (form.close ++ '\x7d' :: rest) = '\x7d' :: rest :=
      skipSpace_append isSpace_of_mem_close rfl rest
    rw [members.go, List.map_nil, listed, List.nil_append, nextName, leaveObject, hskip]
    rfl
  case cons f later ih =>
    obtain ⟨fuel, rfl⟩ := Nat.exists_eq_add_one_of_ne_zero (Nat.ne_of_gt (Nat.zero_lt_of_lt hfuel))
    have ⟨hkind, hkinds⟩ := List.forall_mem_cons.1 hkinds
    have ⟨hnew, hseen⟩ := List.forall_mem_cons.1 hseen
    have ⟨hname, hnames⟩ := List.nodup_cons.1 hnames
    have hfresh : ∀ f' ∈ later, (f.entry :: seen).lookup f'.name = none := by
      intro f' hf'
      have hne : f'.name ≠ f.name := fun heq => hname (heq ▸ List.mem_map_of_mem hf')
      rw [Field.entry, List.lookup_cons, beq_false_of_ne hne]
      exact hseen f' hf'
    have hlater := ih hkinds hnames hfresh (Nat.lt_of_succ_lt_succ hfuel) false
    have hvalue := read_value form f (follows_field form later rest)
    rw [members.go, List.map_cons, listed, List.append_assoc, List.append_assoc, List.append_assoc, nextName_field]
    simp only [bind, Except.bind, readBody_writeBody, String.ofList_toList, hnew, Option.isSome_none,
      Bool.false_eq_true, if_false, skipSpace_cons (c := ':') rfl, hkind, hvalue]
    rw [← Field.entry, hlater]
    simp

end Form

-- The fields of a shape are found, whatever the order in which they were read.
theorem Shape.collect_of_lookup {s : Shape} {fields : List Field} {seen : List (String × Datum)}
    (hshape : s.fields = fields.map Field.declaration) (hseen : ∀ f ∈ fields, seen.lookup f.name = some f.datum) :
    s.collect seen = .ok (fields.map Field.datum) := by
  rw [Shape.collect, hshape, List.mapM_map]
  refine mapM_of_forall_ok fun f hf => ?_
  simp [Field.declaration, hseen f hf]

-- An object that has the fields of a shape is read as the data that its fields hold, in whatever form it is written.
theorem Shape.read_render {s : Shape} {fields : List Field} (hshape : s.fields = fields.map Field.declaration)
    (hnames : (fields.map Field.name).Nodup) (hne : fields ≠ []) (form : Form) :
    s.read (form.render (fields.map Field.member)).toList = .ok (fields.map Field.datum) := by
  have hkeys {α : Type} (g : Field → String × α) (hg : ∀ f, (g f).1 = f.name) :
      ((fields.map g).map (·.1)).Nodup := by
    simpa [Function.comp_def, hg] using hnames
  have hkinds : ∀ f ∈ fields, s.fields.lookup f.name = some f.kind := fun f hf =>
    hshape ▸ lookup_of_mem (hkeys Field.declaration fun _ => rfl) (List.mem_map_of_mem hf)
  have hseen : (((fields.map Field.entry).reverse).map (·.1)).Nodup := by
    rw [List.map_reverse]
    exact (List.reverse_perm _).nodup_iff.2 (hkeys Field.entry fun _ => rfl)
  have hentries : ∀ f ∈ fields, ((fields.map Field.entry).reverse).lookup f.name = some f.datum := fun f hf =>
    lookup_of_mem hseen (List.mem_reverse.2 (List.mem_map_of_mem hf))
  have hfuel : fields.length <
      (listed form.gap true (fields.map form.field) ++ (form.close ++ ['\x7d'])).length + 1 := by
    have hfields : ∀ item ∈ fields.map form.field, item ≠ [] := by simp [Form.field]
    have hlen := length_le_length_listed form.gap true hfields
    simp at hlen ⊢
    omega
  have hempty : ∀ f ∈ fields, ([] : List (String × Datum)).lookup f.name = none := fun _ _ => rfl
  have hmembers := form.members_listed hkinds hnames hempty hfuel true []
  rw [List.append_nil] at hmembers
  rw [Form.render_toList hne, Shape.read, Shape.readPrefix, skipSpace_cons rfl]
  simp only [members, hmembers, bind, Except.bind, Shape.collect_of_lookup hshape hentries]
  rfl

end StationScript.Json
