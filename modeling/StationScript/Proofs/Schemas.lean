import Mathlib.Data.List.Forall2
import StationScript.Proofs.Numerals
import StationScript.Proofs.Whole
import StationScript.Yaml.Reader

namespace StationScript.Yaml

section

variable {d : Document} {n m m' : Node} {k k' : Nat}

-- The node itself, or the one that it refers to, and along how many aliases.
inductive Leads (d : Document) : Node → Node → Nat → Prop
  | here {n : Node} (h : ∀ number, n ≠ .alias number) : Leads d n n 0
  | there {number : Nat} {n : Node} (h : d.target? number = some n) : Leads d (.alias number) n 1

theorem Leads.unique (h : Leads d n m k) (h' : Leads d n m' k') : m = m' := by
  cases h
  case here hn =>
    cases h'
    case here    => rfl
    case there h => exact absurd rfl (hn _)
  case there ht =>
    cases h'
    case here hn  => exact absurd rfl (hn _)
    case there h' => exact Option.some.inj (ht.symm.trans h')

theorem Leads.isCut (h : Leads d n m k) (hd : d.IsWhole) (hn : n.isCut = false) : m.isCut = false := by
  cases h
  case here    => exact hn
  case there h => exact hd.target _ _ h

-- The elements of a list, where nothing stands for an empty one.
inductive Elements (d : Document) (n : Node) : List Node → Nat → Prop
  | sequence {a t l k} (h : Leads d n (.sequence a t l) k) : Elements d n l k
  | blank {a s k} (h : Leads d n (.scalar a s) k) (hs : s.isBlank) : Elements d n [] k

theorem Elements.unique {l l' : List Node} (h : Elements d n l k) (h' : Elements d n l' k') : l = l' := by
  cases h
  case sequence h =>
    cases h'
    case sequence h' => cases h.unique h'; rfl
    case blank _ h'  => cases h.unique h'
  case blank _ h =>
    cases h'
    case sequence h' => cases h.unique h'
    case blank       => rfl

-- The entries of a map, likewise.
inductive Entries (d : Document) (n : Node) : List (Node × Node) → Nat → Prop
  | mapping {a t l k} (h : Leads d n (.mapping a t l) k) : Entries d n l k
  | blank {a s k} (h : Leads d n (.scalar a s) k) (hs : s.isBlank) : Entries d n [] k

theorem Entries.unique {l l' : List (Node × Node)} (h : Entries d n l k) (h' : Entries d n l' k') : l = l' := by
  cases h
  case mapping h =>
    cases h'
    case mapping h' => cases h.unique h'; rfl
    case blank _ h' => cases h.unique h'
  case blank _ h =>
    cases h'
    case mapping h' => cases h.unique h'
    case blank      => rfl

end

section

variable {cs digits : List Char} {c : Char} {limit n : Nat}

theorem hexValue?_of_isDigit (h : Text.isDigit c) : hexValue? c = some (Text.digitValue c) := by
  simp [hexValue?, h]

theorem foldlM_of_isDigit (h : ∀ c ∈ digits, Text.isDigit c) (n : Nat) :
    digits.foldlM (fun n c => (hexValue? c).bind fun d => if d < 10 then some (10 * n + d) else none) n =
      some (digits.foldl (fun n c => 10 * n + Text.digitValue c) n) := by
  induction digits generalizing n
  case nil => rfl
  case cons c rest ih =>
    have ⟨hc, hrest⟩ := List.forall_mem_cons.1 h
    rw [List.foldlM_cons, hexValue?_of_isDigit hc, Option.bind_some, if_pos (Text.digitValue_lt_of_isDigit hc)]
    exact ih hrest _

theorem digitsIn?_of_isDigit (hne : digits ≠ []) (h : ∀ c ∈ digits, Text.isDigit c) :
    digitsIn? 10 digits = some (Text.digitsValue digits) := by
  rw [digitsIn?, if_neg (by simpa using hne), foldlM_of_isDigit h]
  rfl

theorem base?_of_isDigit (h : ∀ c ∈ digits, Text.isDigit c) : base? digits = none := by
  unfold base?
  split
  case h_1 => cases h 'x' (by simp)
  case h_2 => cases h 'o' (by simp)
  case h_3 => cases h 'b' (by simp)
  case h_4 => rfl

-- Digits have no sign in front, which leaves needless zeros.
theorem isPadded_iff_of_isDigit (h : ∀ c ∈ digits, Text.isDigit c) :
    isPadded digits ↔ 1 < digits.length ∧ digits.head? = some '0' := by
  have hsign : ¬digits.head?.any isSign := by
    rw [Option.any_eq_true]
    rintro ⟨c, hc, hs⟩
    have hdigit : Text.isDigit c := h c (List.mem_of_mem_head? hc)
    rcases (Bool.or_eq_true ..).mp hs with hs | hs
    all_goals
      obtain rfl := eq_of_beq hs
      cases hdigit
  simp [isPadded, hsign, List.all_eq_true.2 h]

theorem magnitude?_eq_some_iff (h : ∀ c ∈ digits, Text.isDigit c) :
    magnitude? digits = some n ↔ digits = Nat.toDigits 10 n := by
  have hunfold : magnitude? digits = if isPadded digits then none else digitsIn? 10 digits := by
    simp only [magnitude?, base?_of_isDigit h]
  rw [hunfold]
  constructor
  case mp =>
    intro hsome
    split at hsome
    case isTrue => cases hsome
    case isFalse hpadded =>
      have hne : digits ≠ [] := by
        rintro rfl
        cases hsome
      have hhead : digits.head? = some '0' → digits.length = 1 := by
        intro hzero
        have hlong : ¬1 < digits.length := fun hlong => hpadded ((isPadded_iff_of_isDigit h).2 ⟨hlong, hzero⟩)
        have hpos := List.length_pos_iff.2 hne
        omega
      rw [digitsIn?_of_isDigit hne h] at hsome
      exact Option.some.inj hsome ▸ (Text.toDigits_digitsValue hne h hhead).symm
  case mpr =>
    rintro rfl
    have hpadded : ¬isPadded (Nat.toDigits 10 n) := by
      rw [isPadded_iff_of_isDigit h]
      rintro ⟨hlength, hzero⟩
      by_cases hn : n = 0
      case pos => exact absurd (hn ▸ hlength) (by decide)
      case neg => exact Text.head?_toDigits hn hzero
    rw [if_neg hpadded, digitsIn?_of_isDigit Nat.toDigits_ne_nil h, Text.digitsValue_toDigits]

-- Decimal digits are read as a number exactly if they are how that number is written, and if it is small enough. A plus
-- sign may stand in front of them.
theorem natural?_eq_some_iff (h : ∀ c ∈ digits, c.isDigit) (hcs : cs = digits ∨ cs = '+' :: digits) :
    natural? limit cs = some n ↔ digits = Nat.toDigits 10 n ∧ n < limit := by
  have hbare : (if cs.head? = some '+' then cs.tail else cs) = digits := by
    rcases hcs with rfl | rfl
    · exact if_neg (Text.head?_ne_plus h)
    · rfl
  have hdigits : ∀ c ∈ digits, Text.isDigit c := fun c hc => Text.isDigit_iff_isDigit.2 (h c hc)
  rw [natural?, hbare, Option.filter_eq_some_iff, magnitude?_eq_some_iff hdigits, decide_eq_true_eq]

end

namespace Scalar

def IsWord (s : Scalar) (n : Nat) : Prop :=
  s.admits "int" ∧ natural? Text.wordLimit s.text.toList = some n

-- A value of decimal digits is the number that is written so, where a number may stand at all.
theorem isWord_iff_of_isDigit {s : Scalar} {n : Nat} (hs : s.admits "int") (h : ∀ c ∈ s.text.toList, c.isDigit) :
    s.IsWord n ↔ s.text = Nat.repr n ∧ n < Text.wordLimit := by
  have htext : s.text = Nat.repr n ↔ s.text.toList = Nat.toDigits 10 n := by
    rw [← String.toList_inj, Text.repr_toList]
  rw [IsWord, natural?_eq_some_iff h (.inl rfl), htext]
  exact and_iff_right hs

def IsBoolean (s : Scalar) (b : Bool) : Prop :=
  s.admits "bool" ∧ boolean? s.text = some b

def IsDouble (s : Scalar) (x : Double) : Prop :=
  s.admits "float" ∧ double? s.text = some x

-- Whether nothing is told: without a tag by no text or by one of the words for nothing, else by such a word alone.
def IsNothing (s : Scalar) : Prop :=
  s.style = .plain ∧ (s.tag = none ∧ (s.text = "" ∨ isNull s.text) ∨ s.tag = some (coreTag "null") ∧ isNull s.text)

def IsSomething (s : Scalar) : Prop :=
  s.style ≠ .plain ∨ s.tag = none ∧ s.text ≠ "" ∧ ¬isNull s.text ∨ ∃ tag, s.tag = some tag ∧ tag ≠ coreTag "null"

theorem IsSomething.not_isNothing {s : Scalar} (h : s.IsSomething) : ¬s.IsNothing := by
  grind [IsSomething, IsNothing]

def IsOption {α : Type} (Means : Scalar → α → Prop) (s : Scalar) : Option α → Prop
  | none   => s.IsNothing
  | some a => s.IsSomething ∧ Means s a

-- One of several names, as the text or as the tag of nothing.
def IsChoice {α : Type} (choices : List (String × α)) (s : Scalar) (a : α) : Prop :=
  Reader.choiceTag? s.tag = none ∧ choices.lookup s.text = some a ∨
    ∃ name, Reader.choiceTag? s.tag = some name ∧ choices.lookup name = some a ∧
      s.style = .plain ∧ (s.text = "" ∨ isNull s.text)

end Scalar

structure Schema (α : Type) where
  -- Whether a node holds a value of the kind.
  Fits (d : Document) (n : Node) : Prop
  -- Whether it says this value, and how many aliases are followed for that.
  Says (d : Document) (n : Node) (a : α) (k : Nat) : Prop
  -- Whether nodes of two documents are the same but for the order of their keys and for keys that are unknown.
  Alike (d d' : Document) (n n' : Node) : Prop

namespace Schema

variable {α σ : Type}

-- Values that are written as plain values.
def written (Means : Scalar → α → Prop) : Schema α where
  Fits d n := ∃ a s k v, Leads d n (.scalar a s) k ∧ Means s v
  Says d n v k := ∃ a s, Leads d n (.scalar a s) k ∧ Means s v
  Alike d d' n n' := ∃ a a' s k k', Leads d n (.scalar a s) k ∧ Leads d' n' (.scalar a' s) k'

def text : Schema String :=
  written fun s v => s.text = v

def word : Schema Nat :=
  written Scalar.IsWord

def boolean : Schema Bool :=
  written Scalar.IsBoolean

def optionalDouble : Schema (Option Double) :=
  written (Scalar.IsOption Scalar.IsDouble)

def choice (choices : List (String × α)) : Schema α :=
  written (Scalar.IsChoice choices)

-- What the elements of a list say one by one.
inductive SayAll (S : Schema α) (d : Document) : List Node → List α → Nat → Prop
  | nil : SayAll S d [] [] 0
  | cons {n l a as j k} (h : S.Says d n a j) (hl : SayAll S d l as k) : SayAll S d (n :: l) (a :: as) (j + k)

def list (S : Schema α) : Schema (List α) where
  Fits d n := ∃ l k, Elements d n l k ∧ ∀ m ∈ l, S.Fits d m
  Says d n as k := ∃ l i j, Elements d n l i ∧ S.SayAll d l as j ∧ k = i + j
  Alike d d' n n' := ∃ l l' k k', Elements d n l k ∧ Elements d' n' l' k' ∧ List.Forall₂ (S.Alike d d') l l'

end Schema

-- A reading that comes to a value along so many aliases, unless these are too many.
def Reading.Yields {α : Type} (limit : Nat) (x : Reading α) (a : α) (k : Nat) : Prop :=
  ∀ count ≤ limit, (count + k ≤ limit → x count = .ok (a, count + k)) ∧
    (limit < count + k → ∃ path, x count = .error ⟨path, .repetition⟩)

-- The greatest number of aliases that are followed.
def Document.aliasLimit (d : Document) : Nat :=
  d.root.size * Site.aliasesPerPart

namespace Reading.Yields

variable {α β : Type} {limit i j : Nat} {x : Reading α} {f : α → Reading β} {a : α} {b : β}

theorem pure (a : α) : Yields limit (Pure.pure a) a 0 :=
  fun _ hcount => ⟨fun _ => rfl, fun h => absurd hcount (Nat.not_le_of_lt h)⟩

theorem bind (hx : x.Yields limit a i) (hf : (f a).Yields limit b j) : (x >>= f).Yields limit b (i + j) := by
  intro count hcount
  have hbind : (x >>= f) count = (x count >>= fun r => f r.1 r.2) := rfl
  have ⟨hok, herror⟩ := hx count hcount
  by_cases hfirst : count + i ≤ limit
  case pos =>
    have ⟨hok', herror'⟩ := hf (count + i) hfirst
    rw [hbind, hok hfirst]
    refine ⟨fun h => ?_, fun h => ?_⟩
    · rw [← Nat.add_assoc]
      exact hok' (by omega)
    · exact herror' (by omega)
  case neg =>
    have ⟨path, hpath⟩ := herror (by omega)
    rw [hbind, hpath]
    exact ⟨fun h => absurd h (by omega), fun _ => ⟨path, rfl⟩⟩

-- What follows no alias may come behind.
theorem bind_zero (hx : x.Yields limit a i) (hf : (f a).Yields limit b 0) : (x >>= f).Yields limit b i :=
  hx.bind hf

theorem map (g : α → β) (hx : x.Yields limit a i) : (g <$> x).Yields limit (g a) i := by
  rw [map_eq_pure_bind]
  exact hx.bind_zero (.pure (g a))

end Reading.Yields

-- A reader of the values of a schema. Every node of the right kind says a value, nodes that are alike say the same
-- value, and that is what is read.
structure Reader.Meets {α : Type} (r : Reader α) (S : Schema α) : Prop where
  exists_said {d n} (h : S.Fits d n) : ∃ a k, S.Says d n a k
  unique {d d' n n' a a' k k'} (h : S.Says d n a k) (halike : S.Alike d d' n n') (h' : S.Says d' n' a' k') : a = a'
  yields (site) {n a k} (hd : site.document.IsWhole) (hn : n.isCut = false) (h : S.Says site.document n a k) :
    (r site n).Yields site.document.aliasLimit a k

namespace Reader

variable {α : Type} {site : Site} {n m : Node} {k : Nat}

theorem follow_yields (h : Leads site.document n m k) : (site.follow n).Yields site.document.aliasLimit m k := by
  cases h
  case here hn =>
    have hfollow : site.follow n = pure n := by
      cases n
      case «alias» number => exact absurd rfl (hn number)
      all_goals rfl
    rw [hfollow]
    exact .pure n
  case there number ht =>
    intro count _
    have hfollow : site.follow (.alias number) count =
        if site.document.aliasLimit < count + 1 then .error ⟨site.path, .repetition⟩ else .ok (m, count + 1) := by
      simp only [Site.follow, ht]
      rfl
    rw [hfollow]
    exact ⟨fun h => if_neg (Nat.not_lt_of_le h), fun h => ⟨site.path, if_pos h⟩⟩

-- A reader of plain values, which reads what they mean.
structure ReadsWritten (r : Reader α) (Means : Scalar → α → Prop) : Prop where
  unique {s v v'} (h : Means s v) (h' : Means s v') : v = v'
  yields {site n a s v k} (h : Leads site.document n (.scalar a s) k) (hv : Means s v) :
    (r site n).Yields site.document.aliasLimit v k

namespace ReadsWritten

variable {Means : Scalar → α → Prop} {r : Reader α}

theorem meets (h : r.ReadsWritten Means) : r.Meets (.written Means) where
  exists_said := fun ⟨a, s, k, v, hlead, hv⟩ => ⟨v, k, a, s, hlead, hv⟩
  unique := by
    rintro d d' n n' v v' k k' ⟨a, s, hs, hv⟩ ⟨_, _, t, _, _, ht, ht'⟩ ⟨a', s', hs', hv'⟩
    cases hs.unique ht
    cases hs'.unique ht'
    exact h.unique hv hv'
  yields := fun _ _ _ _ _ _ ⟨_, _, hs, hv⟩ => h.yields hs hv

theorem textAs (expected : String) : (textAs expected).ReadsWritten fun s v => s.text = v where
  unique h h' := h.symm.trans h'
  yields h hv := hv ▸ (follow_yields h).bind_zero (.pure _)

theorem scalar (kind expected : String) (meaning : String → Option α) :
    (scalar kind expected meaning).ReadsWritten fun s v => s.admits kind ∧ meaning s.text = some v where
  unique h h' := Option.some.inj (h.right.symm.trans h'.right)
  yields h hv := by
    refine (follow_yields h).bind_zero ?_
    simp only [if_pos hv.left, hv.right]
    exact .pure _

theorem isPresent_of_isNothing {s : Scalar} (h : s.IsNothing) : isPresent site s = pure false := by
  obtain ⟨hstyle, ⟨htag, htext⟩ | ⟨htag, hnull⟩⟩ := h
  · simp only [isPresent, hstyle, htag]
    grind
  · simp [isPresent, hstyle, htag, hnull]

theorem isPresent_of_isSomething {s : Scalar} (h : s.IsSomething) : isPresent site s = pure true := by
  obtain hstyle | ⟨htag, htext, hnull⟩ | ⟨tag, htag, hother⟩ := h
  · simp [isPresent, hstyle]
  · simp [isPresent, htag, htext, hnull]
  · simp [isPresent, htag, hother]

-- A value that is there is read again where it stands, so that no alias counts twice.
theorem option (h : r.ReadsWritten Means) : (option r).ReadsWritten (Scalar.IsOption Means) where
  unique {s v v'} hv hv' := by
    cases v <;> cases v'
    case none.none           => rfl
    case some.some           => rw [h.unique hv.right hv'.right]
    case none.some           => exact absurd hv (Scalar.IsSomething.not_isNothing hv'.left)
    case some.none           => exact absurd hv' (Scalar.IsSomething.not_isNothing hv.left)
  yields {site n a s v k} hs hv := by
    refine (follow_yields hs).bind_zero ?_
    cases v
    case none =>
      simp only [isPresent_of_isNothing hv]
      exact .pure none
    case some v =>
      simp only [isPresent_of_isSomething hv.left]
      exact .map some (h.yields (.here nofun) hv.right)

theorem choose_of_lookup {choices : List (String × α)} {name : String} {v : α} (h : choices.lookup name = some v) :
    choose choices site name = pure v := by
  simp only [choose, h]

theorem choice (choices : List (String × α)) : (choice choices).ReadsWritten (Scalar.IsChoice choices) where
  unique := by
    rintro s v v' (⟨htag, hv⟩ | ⟨name, htag, hv, _⟩) (⟨htag', hv'⟩ | ⟨name', htag', hv', _⟩) <;>
      grind
  yields {site n a s v k} hs hv := by
    refine (follow_yields hs).bind_zero ?_
    obtain ⟨htag, hv⟩ | ⟨name, htag, hv, hplain⟩ := hv
    · simp only [htag, choose_of_lookup hv]
      exact .pure v
    · simp only [htag, choose_of_lookup hv, if_pos hplain]
      exact .pure v

end ReadsWritten

theorem text_meets : text.Meets .text :=
  (ReadsWritten.textAs _).meets

theorem word_meets : word.Meets .word :=
  (ReadsWritten.scalar ..).meets

theorem boolean_meets : boolean.Meets .boolean :=
  (ReadsWritten.scalar ..).meets

theorem optionalDouble_meets : (option double).Meets .optionalDouble :=
  (ReadsWritten.scalar ..).option.meets

theorem choice_meets (choices : List (String × α)) : (choice choices).Meets (.choice choices) :=
  (ReadsWritten.choice choices).meets

section

variable {S : Schema α} {r : Reader α}

theorem items_yields (h : r.Meets S) (hd : site.document.IsWhole) {l as k} (hl : Node.itemsCut l = false)
    (hsay : S.SayAll site.document l as k) (index : Nat) :
    (items r site index l).Yields site.document.aliasLimit as k := by
  induction hsay generalizing index
  case nil => exact .pure []
  case cons ha _ ih =>
    simp only [Node.itemsCut, Bool.or_eq_false_iff] at hl
    have hfirst := h.yields (site.below (.item index)) hd hl.left ha
    have hrest := ih hl.right (index + 1)
    exact hfirst.bind (hrest.bind_zero (.pure _))

theorem exists_sayAll (h : r.Meets S) {d l} (hfits : ∀ n ∈ l, S.Fits d n) : ∃ as k, S.SayAll d l as k := by
  induction l
  case nil => exact ⟨[], 0, .nil⟩
  case cons n l ih =>
    have ⟨a, i, ha⟩ := h.exists_said (hfits n (List.mem_cons_self ..))
    have ⟨as, j, has⟩ := ih fun m hm => hfits m (List.mem_cons_of_mem _ hm)
    exact ⟨a :: as, i + j, .cons ha has⟩

theorem sayAll_unique (h : r.Meets S) {d d' l l' as as' k k'} (halike : List.Forall₂ (S.Alike d d') l l')
    (hsay : S.SayAll d l as k) (hsay' : S.SayAll d' l' as' k') : as = as' := by
  induction hsay generalizing l' as' k'
  case nil =>
    cases halike
    cases hsay'
    rfl
  case cons ha _ ih =>
    cases halike
    case cons hn hl =>
      cases hsay'
      case cons ha' hsay' => rw [h.unique ha hn ha', ih hl hsay']

theorem list_meets (h : r.Meets S) : (list r).Meets S.list where
  exists_said := by
    rintro d n ⟨l, i, hl, hfits⟩
    have ⟨as, j, hsay⟩ := exists_sayAll h hfits
    exact ⟨as, i + j, l, i, j, hl, hsay, rfl⟩
  unique := by
    rintro d d' n n' as as' _ _ ⟨l, _, _, hl, hsay, _⟩ ⟨l₁, l₁', _, _, hl₁, hl₁', halike⟩ ⟨l', _, _, hl', hsay', _⟩
    cases hl.unique hl₁
    cases hl'.unique hl₁'
    exact sayAll_unique h halike hsay hsay'
  yields := by
    rintro site n as _ hd hn ⟨l, i, j, hl, hsay, rfl⟩
    cases hl
    case sequence hlead =>
      exact (follow_yields hlead).bind (items_yields h hd (hlead.isCut hd hn) hsay 0)
    case blank hs hlead =>
      cases hsay
      refine (follow_yields hlead).bind_zero ?_
      simp only [if_pos hs]
      exact .pure []

end

end Reader

end StationScript.Yaml
