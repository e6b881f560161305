import Mathlib.Data.List.Nodup
import StationScript.Proofs.Lists
import StationScript.Proofs.Schemas

namespace StationScript.Yaml

-- A key that a record knows.
structure Key (σ : Type) where
  {α : Type}
  name : String
  -- Whether there is no record without it.
  required : Bool := false
  schema : Schema α
  -- What a record holds under the key, and the record with another value there.
  get : σ → α
  set : α → σ → σ

namespace Key

def of {σ α : Type} (name : String) (schema : Schema α) (get : σ → α) (set : α → σ → σ) : Key σ :=
  { name, schema, get, set }

def require {σ : Type} (p : Key σ) : Key σ :=
  { p with required := true }

end Key

namespace Schema

variable {σ : Type}

-- Whether entries hold values of the right kinds under the keys that are known, of which they have those with these
-- names, each once. Under other keys there may be anything.
inductive FitKeys (keys : List (Key σ)) (d : Document) : List (Node × Node) → List String → Prop
  | nil : FitKeys keys d [] []
  | known {key value rest names k} {p : Key σ} (hp : p ∈ keys) (hkey : text.Says d key p.name k)
      (hvalue : p.schema.Fits d value) (hnew : p.name ∉ names) (hrest : FitKeys keys d rest names) :
      FitKeys keys d ((key, value) :: rest) (p.name :: names)
  | unknown {key value rest name names k} (hunknown : ∀ p ∈ keys, p.name ≠ name) (hkey : text.Says d key name k)
      (hrest : FitKeys keys d rest names) : FitKeys keys d ((key, value) :: rest) names

-- Whether entries say what a record holds under these keys.
inductive SayKeys (keys : List (Key σ)) (d : Document) (s : σ) : List (Node × Node) → List String → Nat → Prop
  | nil : SayKeys keys d s [] [] 0
  | known {key value rest names i j k} {p : Key σ} (hp : p ∈ keys) (hkey : text.Says d key p.name i)
      (hvalue : p.schema.Says d value (p.get s) j) (hnew : p.name ∉ names) (hrest : SayKeys keys d s rest names k) :
      SayKeys keys d s ((key, value) :: rest) (p.name :: names) (i + (j + k))
  | unknown {key value rest name names i k} (hunknown : ∀ p ∈ keys, p.name ≠ name) (hkey : text.Says d key name i)
      (hrest : SayKeys keys d s rest names k) : SayKeys keys d s ((key, value) :: rest) names (i + k)

-- Whether a value stands among entries under a key of this name.
def Under (d : Document) (entries : List (Node × Node)) (name : String) (value : Node) : Prop :=
  ∃ key k, (key, value) ∈ entries ∧ text.Says d key name k

-- A record with known keys. What an entry does not tell is as in the record at the start.
def record (start : σ) (keys : List (Key σ)) : Schema σ where
  Fits d n := ∃ entries names k, Entries d n entries k ∧ FitKeys keys d entries names ∧
    ∀ p ∈ keys, p.required → p.name ∈ names
  Says d n s k := ∃ entries names i j, Entries d n entries i ∧ SayKeys keys d s entries names j ∧
    (∀ p ∈ keys, p.name ∉ names → ¬p.required ∧ p.get s = p.get start) ∧ k = i + j
  Alike d d' n n' := ∃ entries entries' k k', Entries d n entries k ∧ Entries d' n' entries' k' ∧ ∀ p ∈ keys,
    (∀ value, Under d entries p.name value →
      ∃ value', Under d' entries' p.name value' ∧ p.schema.Alike d d' value value') ∧
    (∀ value', Under d' entries' p.name value' →
      ∃ value, Under d entries p.name value ∧ p.schema.Alike d d' value value')

end Schema

-- Keys with different names, which hold what a record consists of independently of each other.
structure Key.Independent {σ : Type} (keys : List (Key σ)) : Prop where
  nodup         : (keys.map Key.name).Nodup
  get_set       : ∀ p ∈ keys, ∀ a s, p.get (p.set a s) = a
  get_set_of_ne : ∀ p ∈ keys, ∀ q ∈ keys, p.name ≠ q.name → ∀ a s, q.get (p.set a s) = q.get s
  ext           : ∀ s s', (∀ p ∈ keys, p.get s = p.get s') → s = s'

theorem Key.Independent.eq_of_name_eq {σ : Type} {keys : List (Key σ)} {p q : Key σ} (h : Independent keys)
    (hp : p ∈ keys) (hq : q ∈ keys) (hname : p.name = q.name) : p = q :=
  List.inj_on_of_nodup_map h.nodup hp hq hname

-- A field that reads what stands under a key.
def Field.Meets {σ : Type} (field : Field σ) (p : Key σ) : Prop :=
  ∃ r : Reader p.α, r.Meets p.schema ∧ field = { Field.of p.name r p.set with required := p.required }

namespace Field.Meets

variable {σ : Type} {field : Field σ} {p : Key σ}

theorem name_eq (h : field.Meets p) : field.name = p.name := by
  obtain ⟨_, _, rfl⟩ := h
  rfl

theorem required_eq (h : field.Meets p) : field.required = p.required := by
  obtain ⟨_, _, rfl⟩ := h
  rfl

end Field.Meets

-- A form whose fields are those of independent keys.
structure Form.Knows {σ : Type} (f : Form σ) (keys : List (Key σ)) : Prop where
  fields      : List.Forall₂ Field.Meets f.fields keys
  independent : Key.Independent keys

section

variable {σ : Type} {f : Form σ} {keys : List (Key σ)} {p : Key σ} {d d' : Document} {s s' : σ}
variable {entries entries' : List (Node × Node)} {names : List String} {k : Nat}

namespace Form.Knows

theorem exists_meets (h : f.Knows keys) (hp : p ∈ keys) : ∃ r : Reader p.α, r.Meets p.schema := by
  have ⟨_, _, r, hr, _⟩ := exists_rel_of_mem h.fields.flip hp
  exact ⟨r, hr⟩

theorem field?_of_unknown (h : f.Knows keys) {name : String} (hunknown : ∀ p ∈ keys, p.name ≠ name) :
    f.field? name = none := by
  refine List.find?_eq_none.2 fun field hfield hname => ?_
  have ⟨p, hp, hmeets⟩ := exists_rel_of_mem h.fields hfield
  exact hunknown p hp (hmeets.name_eq.symm.trans (eq_of_beq hname))

theorem field?_of_mem (h : f.Knows keys) (hp : p ∈ keys) : ∃ field, f.field? p.name = some field ∧ field.Meets p := by
  have ⟨field, hfield, hmeets⟩ := exists_rel_of_mem h.fields.flip hp
  cases hfound : f.field? p.name
  case none =>
    have hname := Field.Meets.name_eq hmeets
    exact absurd (beq_iff_eq.2 hname) (List.find?_eq_none.1 hfound field hfield)
  case some found =>
    -- Another field of this name would be that of the same key.
    have ⟨q, hq, hfits⟩ := exists_rel_of_mem h.fields (List.mem_of_find?_eq_some hfound)
    have hname := List.find?_some hfound
    cases h.independent.eq_of_name_eq hq hp (hfits.name_eq.symm.trans (eq_of_beq hname))
    exact ⟨found, rfl, hfits⟩

end Form.Knows

namespace Schema

-- What a record holds under other keys does not matter.
theorem SayKeys.congr (h : SayKeys keys d s entries names k) (hs : ∀ p ∈ keys, p.name ∈ names → p.get s = p.get s') :
    SayKeys keys d s' entries names k := by
  induction h
  case nil => exact .nil
  case known hp hkey hvalue hnew _ ih =>
    have hrest := ih fun q hq hmem => hs q hq (List.mem_cons_of_mem _ hmem)
    rw [hs _ hp (List.mem_cons_self ..)] at hvalue
    exact .known hp hkey hvalue hnew hrest
  case unknown hunknown hkey _ ih => exact .unknown hunknown hkey (ih hs)

theorem Under.cons {name : String} {value : Node} (h : Under d entries name value) (entry : Node × Node) :
    Under d (entry :: entries) name value :=
  have ⟨key, k, hmem, hsaid⟩ := h
  ⟨key, k, List.mem_cons_of_mem _ hmem, hsaid⟩

theorem SayKeys.exists_under (h : SayKeys keys d s entries names k) {name : String} (hname : name ∈ names) :
    ∃ value, Under d entries name value := by
  induction h
  case nil => cases hname
  case known value _ _ _ _ _ _ _ hkey _ _ _ ih =>
    cases hname
    case head       => exact ⟨value, _, _, List.mem_cons_self .., hkey⟩
    case tail hname =>
      have ⟨value, hvalue⟩ := ih hname
      exact ⟨value, hvalue.cons _⟩
  case unknown ih =>
    have ⟨value, hvalue⟩ := ih hname
    exact ⟨value, hvalue.cons _⟩

theorem text_unique {n : Node} {a a' : String} {k k' : Nat} (h : text.Says d n a k) (h' : text.Says d n a' k') :
    a = a' := by
  obtain ⟨_, _, hs, rfl⟩ := h
  obtain ⟨_, _, hs', rfl⟩ := h'
  cases hs.unique hs'
  rfl

-- What stands under a key says what the record holds there.
theorem SayKeys.says_of_under (hkeys : Key.Independent keys) (h : SayKeys keys d s entries names k) (hp : p ∈ keys)
    {value : Node} (hvalue : Under d entries p.name value) :
    p.name ∈ names ∧ ∃ k, p.schema.Says d value (p.get s) k := by
  obtain ⟨key, i, hmem, hname⟩ := hvalue
  induction h
  case nil => cases hmem
  case known j _ q hq hkey hsaid _ _ ih =>
    cases hmem
    case head =>
      cases hkeys.eq_of_name_eq hq hp (text_unique hkey hname)
      exact ⟨List.mem_cons_self .., j, hsaid⟩
    case tail hmem =>
      have ⟨hin, hsaid⟩ := ih hmem
      exact ⟨List.mem_cons_of_mem _ hin, hsaid⟩
  case unknown hunknown hkey _ ih =>
    cases hmem
    case head      => exact absurd (text_unique hname hkey) (hunknown p hp)
    case tail hmem => exact ih hmem

end Schema

namespace Form.Knows

-- The record is put together from the last entry on.
theorem exists_sayKeys (h : f.Knows keys) (hfit : Schema.FitKeys keys d entries names) (start : σ) :
    ∃ s k, Schema.SayKeys keys d s entries names k ∧ ∀ p ∈ keys, p.name ∉ names → p.get s = p.get start := by
  induction hfit
  case nil => exact ⟨start, 0, .nil, fun _ _ _ => rfl⟩
  case known names i p hp hkey hvalue hnew _ ih =>
    obtain ⟨s, k, hsay, hother⟩ := ih
    obtain ⟨r, hr⟩ := h.exists_meets hp
    obtain ⟨a, j, ha⟩ := hr.exists_said hvalue
    have hset : ∀ q ∈ keys, p.name ≠ q.name → q.get (p.set a s) = q.get s := fun q hq hne =>
      h.independent.get_set_of_ne p hp q hq hne a s
    refine ⟨p.set a s, i + (j + k), .known hp hkey ?value hnew (hsay.congr ?names), ?other⟩
    case value => rwa [h.independent.get_set p hp a s]
    case names => exact fun q hq hmem => (hset q hq (ne_of_mem_of_not_mem hmem hnew).symm).symm
    case other =>
      intro q hq hq'
      have ⟨hne, hnot⟩ := not_or.1 (mt List.mem_cons.2 hq')
      exact (hset q hq (Ne.symm hne)).trans (hother q hq hnot)
  case unknown i hunknown hkey _ ih =>
    obtain ⟨s, k, hsay, hother⟩ := ih
    exact ⟨s, i + k, .unknown hunknown hkey hsay, hother⟩

theorem exists_said (h : f.Knows keys) {n : Node} (hfit : (Schema.record f.start keys).Fits d n) :
    ∃ s k, (Schema.record f.start keys).Says d n s k := by
  obtain ⟨entries, names, i, hentries, hkeys, hrequired⟩ := hfit
  obtain ⟨s, j, hsay, hother⟩ := h.exists_sayKeys hkeys f.start
  refine ⟨s, i + j, entries, names, i, j, hentries, hsay, fun p hp hnot => ⟨?_, hother p hp hnot⟩, rfl⟩
  exact fun hneeded => hnot (hrequired p hp hneeded)

theorem unique (h : f.Knows keys) {n n' : Node} (hsaid : (Schema.record f.start keys).Says d n s k)
    (halike : (Schema.record f.start keys).Alike d d' n n') {k' : Nat}
    (hsaid' : (Schema.record f.start keys).Says d' n' s' k') : s = s' := by
  obtain ⟨entries, names, i, _, hentries, hsay, hother, _⟩ := hsaid
  obtain ⟨entries', names', i', _, hentries', hsay', hother', _⟩ := hsaid'
  obtain ⟨entries₁, entries₁', _, _, h₁, h₁', hunder⟩ := halike
  cases hentries.unique h₁
  cases hentries'.unique h₁'
  refine h.independent.ext s s' fun p hp => ?_
  have ⟨hthere, hback⟩ := hunder p hp
  by_cases hname : p.name ∈ names
  case pos =>
    obtain ⟨value, hvalue⟩ := hsay.exists_under hname
    obtain ⟨value', hvalue', hsame⟩ := hthere value hvalue
    obtain ⟨_, _, ha⟩ := hsay.says_of_under h.independent hp hvalue
    obtain ⟨_, _, ha'⟩ := hsay'.says_of_under h.independent hp hvalue'
    obtain ⟨r, hr⟩ := h.exists_meets hp
    exact hr.unique ha hsame ha'
  case neg =>
    have hname' : p.name ∉ names' := by
      intro hin
      obtain ⟨value', hvalue'⟩ := hsay'.exists_under hin
      obtain ⟨value, hvalue, _⟩ := hback value' hvalue'
      exact hname (hsay.says_of_under h.independent hp hvalue).left
    exact (hother p hp hname).right.trans (hother' p hp hname').right.symm

variable {site : Site}

theorem field_yields {field : Field σ} (h : field.Meets p) (site : Site) (hd : site.document.IsWhole) {value : Node}
    (hvalue : value.isCut = false) {a : p.α} (ha : p.schema.Says site.document value a k) :
    (field.read site value).Yields site.document.aliasLimit (p.set a) k := by
  obtain ⟨r, hr, rfl⟩ := h
  exact (hr.yields site hd hvalue ha).bind_zero (.pure _)

theorem key_yields {key : Node} {name : String} (h : Schema.text.Says site.document key name k) :
    (Reader.textAs "field identifier" site key).Yields site.document.aliasLimit name k :=
  have ⟨_, _, hlead, htext⟩ := h
  (Reader.ReadsWritten.textAs _).yields hlead htext

-- After the entries the record holds what they say under the keys that came, and has not changed under the others.
theorem entries_yield (h : f.Knows keys) (hd : site.document.IsWhole) (hcut : Node.entriesCut entries = false)
    (hsay : Schema.SayKeys keys site.document s entries names k) (seen : List String)
    (hnew : ∀ name ∈ names, name ∉ seen) (start : σ) :
    ∃ seen' s', (f.entries site seen start entries).Yields site.document.aliasLimit (seen', s') k ∧
      (∀ name, name ∈ seen' ↔ name ∈ names ∨ name ∈ seen) ∧
      ∀ p ∈ keys, p.get s' = if p.name ∈ names then p.get s else p.get start := by
  induction hsay generalizing seen start
  case nil => exact ⟨seen, start, .pure _, by simp, by simp⟩
  case known key value rest names i j k p hp hkey hvalue hfresh _ ih =>
    simp only [Node.entriesCut, Bool.or_eq_false_iff] at hcut
    obtain ⟨field, hfield, hmeets⟩ := h.field?_of_mem hp
    have hunseen : seen.contains p.name = false := by simpa using hnew p.name (List.mem_cons_self ..)
    have hlater : ∀ name ∈ names, name ∉ p.name :: seen := by
      intro name hname hin
      cases hin
      case head     => exact hfresh hname
      case tail hin => exact hnew name (List.mem_cons_of_mem _ hname) hin
    obtain ⟨seen', s', hrest, hseen', hget⟩ := ih hcut.right (p.name :: seen) hlater (p.set (p.get s) start)
    refine ⟨seen', s', ?yields, ?seen, ?get⟩
    case yields =>
      have hfirst := field_yields hmeets (site.below (step key)) hd hcut.left.right hvalue
      refine (key_yields hkey).bind ?_
      simp only [hfield, hunseen]
      exact hfirst.bind hrest
    case seen =>
      intro name
      simp only [hseen', List.mem_cons]
      tauto
    case get =>
      intro q hq
      rw [hget q hq]
      by_cases hname : p.name = q.name
      case pos =>
        cases h.independent.eq_of_name_eq hp hq hname
        simp [hfresh, h.independent.get_set p hp]
      case neg => simp [Ne.symm hname, h.independent.get_set_of_ne p hp q hq hname]
  case unknown key value rest name names i k hunknown hkey _ ih =>
    simp only [Node.entriesCut, Bool.or_eq_false_iff] at hcut
    obtain ⟨seen', s', hrest, hseen', hget⟩ := ih hcut.right seen hnew start
    refine ⟨seen', s', ?_, hseen', hget⟩
    refine (key_yields hkey).bind ?_
    simp only [h.field?_of_unknown hunknown, hcut.left.right]
    exact hrest

theorem finish_yields (h : f.Knows keys) {seen : List String} (hseen : ∀ p ∈ keys, p.required → p.name ∈ seen) (s : σ) :
    (f.finish site seen s).Yields site.document.aliasLimit s 0 := by
  have hnone : f.fields.find? (fun field => field.required && !seen.contains field.name) = none := by
    refine List.find?_eq_none.2 fun field hfield => ?_
    have ⟨p, hp, hmeets⟩ := exists_rel_of_mem h.fields hfield
    simpa [hmeets.name_eq, hmeets.required_eq] using hseen p hp
  simp only [finish, hnone]
  exact .pure s

theorem yields (h : f.Knows keys) (site : Site) (hd : site.document.IsWhole) {n : Node} (hn : n.isCut = false)
    (hsaid : (Schema.record f.start keys).Says site.document n s k) :
    (f.read site n).Yields site.document.aliasLimit s k := by
  obtain ⟨entries, names, i, j, hentries, hsay, hother, rfl⟩ := hsaid
  cases hentries
  case mapping hlead =>
    have hcut : Node.entriesCut entries = false := hlead.isCut hd hn
    have ⟨seen, s', hread, hseen, hget⟩ := h.entries_yield hd hcut hsay [] (fun _ _ => List.not_mem_nil) f.start
    have hs : s' = s := by
      refine h.independent.ext s' s fun p hp => (hget p hp).trans ?_
      split
      case isTrue      => rfl
      case isFalse hno => exact (hother p hp hno).right.symm
    have hneeded : ∀ p ∈ keys, p.required → p.name ∈ seen := by
      intro p hp hrequired
      refine (hseen p.name).2 (.inl ?_)
      by_contra hno
      exact (hother p hp hno).left hrequired
    cases hs
    exact (Reader.follow_yields hlead).bind (hread.bind_zero (h.finish_yields hneeded s))
  case blank hs hlead =>
    cases hsay
    have hstart : f.start = s := h.independent.ext f.start s fun p hp => (hother p hp List.not_mem_nil).right.symm
    have hneeded : ∀ p ∈ keys, p.required → p.name ∈ [] := fun p hp hrequired =>
      absurd hrequired (hother p hp List.not_mem_nil).left
    cases hstart
    refine (Reader.follow_yields hlead).bind_zero ?_
    simp only [if_pos hs]
    exact h.finish_yields hneeded f.start

-- Every form reads what its keys say.
theorem read_meets (h : f.Knows keys) : f.read.Meets (.record f.start keys) where
  exists_said                := h.exists_said
  unique hsaid halike hsaid' := h.unique hsaid halike hsaid'
  yields := fun site _ _ _ hd hn hsaid => h.yields site hd hn hsaid

-- What a form makes of a whole document.
theorem ofDocument (h : f.Knows keys) (hd : d.IsWhole) (hcomplete : d.complete)
    (hsaid : (Schema.record f.start keys).Says d d.root s k) :
    (k ≤ d.aliasLimit → f.ofDocument d = .ok s) ∧
      (d.aliasLimit < k → ∃ path, f.ofDocument d = .error ⟨path, .repetition⟩) := by
  have ⟨hwithin, hbeyond⟩ := h.yields { document := d } hd hd.root hsaid 0 (Nat.zero_le _)
  rw [Nat.zero_add] at hwithin hbeyond
  constructor
  case left =>
    intro hk
    simp only [Form.ofDocument, hwithin hk, hcomplete]
    rfl
  case right =>
    intro hk
    have ⟨path, hpath⟩ := hbeyond hk
    refine ⟨path, ?_⟩
    simp only [Form.ofDocument, hpath]
    rfl

end Form.Knows

end

end StationScript.Yaml
