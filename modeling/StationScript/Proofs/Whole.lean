import StationScript.Yaml.Document

namespace StationScript.Yaml

-- A part that goes on behind it is whole.
def Part.Sound {α : Type} (isCut : α → Bool) (p : Part α) : Prop :=
  ∀ r, p.2 = some r → isCut p.1 = false

-- All that is read with so much fuel is sound.
structure ReadsSoundly (fuel : Nat) : Prop where
  node         : ∀ handles place r, (node fuel handles place r).Sound Node.isCut
  optional     : ∀ handles place ends r, (optional fuel handles place ends r).Sound Node.isCut
  marked       : ∀ handles place ends r, (marked fuel handles place ends r).Sound Node.isCut
  blockItems   : ∀ handles loose r, (blockItems fuel handles loose r).Sound Node.itemsCut
  blockEntries : ∀ handles r, (blockEntries fuel handles r).Sound Node.entriesCut
  listItems    : ∀ handles first r, (listItems fuel handles first r).Sound Node.itemsCut
  pair         : ∀ handles r, (pair fuel handles r).Sound Node.isCut
  mapEntries   : ∀ handles first r, (mapEntries fuel handles first r).Sound Node.entriesCut

namespace ReadsSoundly

variable {fuel : Nat}

theorem zero : ReadsSoundly 0 := by
  constructor <;> intros <;>
    simp [Part.Sound, Yaml.node, Yaml.optional, Yaml.marked, Yaml.blockItems, Yaml.blockEntries, Yaml.listItems,
      Yaml.pair, Yaml.mapEntries]

theorem node_succ (h : ReadsSoundly fuel) (handles place r) :
    (Yaml.node (fuel + 1) handles place r).Sound Node.isCut := by
  have hlist := h.listItems handles
  have hmap := h.mapEntries handles
  have hitems := h.blockItems handles
  have hentries := h.blockEntries handles
  simp only [Part.Sound] at *
  rw [node.eq_def]
  grind [Node.isCut]

theorem optional_succ (h : ReadsSoundly fuel) (handles place ends r) :
    (Yaml.optional (fuel + 1) handles place ends r).Sound Node.isCut := by
  have hnode := h.node handles place
  simp only [Part.Sound] at *
  rw [optional.eq_def]
  grind [Node.isCut, Node.empty]

theorem marked_succ (h : ReadsSoundly fuel) (handles place ends r) :
    (Yaml.marked (fuel + 1) handles place ends r).Sound Node.isCut := by
  have hoptional := h.optional handles place ends
  simp only [Part.Sound] at *
  rw [marked.eq_def]
  grind [Node.isCut, Node.empty]

theorem blockItems_succ (h : ReadsSoundly fuel) (handles loose r) :
    (Yaml.blockItems (fuel + 1) handles loose r).Sound Node.itemsCut := by
  have hitem := h.optional handles .block (if loose then endsLooseItem else endsItem)
  have hlater := h.blockItems handles loose
  simp only [Part.Sound] at *
  rw [blockItems.eq_def]
  grind [Node.itemsCut]

theorem blockEntries_succ (h : ReadsSoundly fuel) (handles r) :
    (Yaml.blockEntries (fuel + 1) handles r).Sound Node.entriesCut := by
  have hkey := h.optional handles .entry endsPart
  have hvalue := h.marked handles .entry endsPart
  have hlater := h.blockEntries handles
  simp only [Part.Sound] at *
  rw [blockEntries.eq_def]
  grind [Node.entriesCut]

theorem listItems_succ (h : ReadsSoundly fuel) (handles first r) :
    (Yaml.listItems (fuel + 1) handles first r).Sound Node.itemsCut := by
  have hpair := h.pair handles
  have hnode := h.node handles .brackets
  have hlater := h.listItems handles
  simp only [Part.Sound] at *
  rw [listItems.eq_def]
  grind [Node.itemsCut]

theorem pair_succ (h : ReadsSoundly fuel) (handles r) :
    (Yaml.pair (fuel + 1) handles r).Sound Node.isCut := by
  have hkey := h.node handles .brackets
  have hvalue := h.marked handles .brackets endsListPart
  simp only [Part.Sound] at *
  rw [pair.eq_def]
  grind [Node.entriesCut, Node.isCut, Node.empty]

theorem mapEntries_succ (h : ReadsSoundly fuel) (handles first r) :
    (Yaml.mapEntries (fuel + 1) handles first r).Sound Node.entriesCut := by
  have hkey := h.optional handles .brackets (fun t => endsMapPart t || t = .value)
  have hnode := h.node handles .brackets
  have hvalue := h.marked handles .brackets endsMapPart
  have hlater := h.mapEntries handles
  simp only [Part.Sound] at *
  rw [mapEntries.eq_def]
  grind [Node.entriesCut, Node.isCut, Node.empty]

-- Each function calls the others with less fuel.
theorem all (fuel : Nat) : ReadsSoundly fuel := by
  induction fuel
  case zero => exact zero
  case succ fuel ih =>
    exact ⟨ih.node_succ, ih.optional_succ, ih.marked_succ, ih.blockItems_succ, ih.blockEntries_succ,
      ih.listItems_succ, ih.pair_succ, ih.mapEntries_succ⟩

end ReadsSoundly

theorem rootNode_sound (handles : List (String × String)) (explicit : Bool) (tokens : List Token) :
    (rootNode handles explicit tokens).Sound Node.isCut := by
  have hsound := ReadsSoundly.all (4 * tokens.length + 4)
  cases explicit
  case false => exact hsound.node _ _ _
  case true  => exact hsound.optional _ _ _ _

namespace Node

theorem isCut_of_mem_entry {n : Node} (h : n.isCut = false) (a : Option Nat) : ∀ e ∈ entry n a, e.2.isCut = false := by
  cases a
  case none        => exact List.forall_mem_nil _
  case some number => exact List.forall_mem_singleton.2 h

mutual

-- What has an anchor in a whole node is whole.
theorem isCut_of_mem_anchored : (n : Node) → n.isCut = false → ∀ e ∈ n.anchored, e.2.isCut = false
  | .scalar a s, h => by
    simp only [anchored]
    exact isCut_of_mem_entry h a
  | .sequence a t items, h => by
    have hitems : itemsCut items = false := h
    simp only [anchored]
    exact List.forall_mem_append.2 ⟨isCut_of_mem_entry h a, isCut_of_mem_itemsAnchored items hitems⟩
  | .mapping a t entries, h => by
    have hentries : entriesCut entries = false := h
    simp only [anchored]
    exact List.forall_mem_append.2 ⟨isCut_of_mem_entry h a, isCut_of_mem_entriesAnchored entries hentries⟩
  | .alias _, _ | .cut, _ => by simp [anchored]

theorem isCut_of_mem_itemsAnchored :
    (l : List Node) → itemsCut l = false → ∀ e ∈ itemsAnchored l, e.2.isCut = false
  | [], _ => by simp [itemsAnchored]
  | n :: rest, h => by
    simp only [itemsCut, Bool.or_eq_false_iff] at h
    have hn := isCut_of_mem_anchored n h.left
    have hrest := isCut_of_mem_itemsAnchored rest h.right
    simp only [itemsAnchored]
    exact List.forall_mem_append.2 ⟨hn, hrest⟩

theorem isCut_of_mem_entriesAnchored :
    (l : List (Node × Node)) → entriesCut l = false → ∀ e ∈ entriesAnchored l, e.2.isCut = false
  | [], _ => by simp [entriesAnchored]
  | (k, v) :: rest, h => by
    simp only [entriesCut, Bool.or_eq_false_iff] at h
    have hk := isCut_of_mem_anchored k h.left.left
    have hv := isCut_of_mem_anchored v h.left.right
    have hrest := isCut_of_mem_entriesAnchored rest h.right
    simp only [entriesAnchored]
    exact List.forall_mem_append.2 ⟨List.forall_mem_append.2 ⟨hk, hv⟩, hrest⟩

end

end Node

namespace Document

-- A document without a cut, to which aliases do not lead either.
structure IsWhole (d : Document) : Prop where
  root   : d.root.isCut = false
  target : ∀ number n, d.target? number = some n → n.isCut = false

theorem isWhole_of_root {d : Document} (h : d.root.isCut = false) : d.IsWhole where
  root := h
  target number n hn := by
    have ⟨before, after, hmem, _⟩ := List.lookup_eq_some_iff.1 hn
    have hanchored : (number, n) ∈ d.root.anchored := by
      rw [← List.mem_reverse, hmem]
      exact List.mem_append_right _ (List.mem_cons_self ..)
    exact Node.isCut_of_mem_anchored d.root h _ hanchored

-- A text that is one document is read to its end.
theorem isWhole_ofTokens {tokens : List Token} (h : (ofTokens tokens).complete) : (ofTokens tokens).IsWhole := by
  refine isWhole_of_root ?_
  unfold ofTokens at h ⊢
  split
  case isTrue => rfl
  case isFalse hne =>
    simp only [if_neg hne, Option.any_eq_true] at h
    obtain ⟨r, hr, _⟩ := h
    -- Without a start that fits there is nothing left, so that the document is not complete.
    split at hr
    case h_1 =>
      exact rootNode_sound _ true _ r hr
    case h_2 =>
      split at hr
      case isTrue hsame =>
        simp only [if_pos hsame]
        exact rootNode_sound _ false _ r hr
      case isFalse => cases hr
    case h_3 => cases hr

theorem isWhole_ofText {text : String} (h : (ofText text).complete) : (ofText text).IsWhole :=
  isWhole_ofTokens h

end Document

end StationScript.Yaml
