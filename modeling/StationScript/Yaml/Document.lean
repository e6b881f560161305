import StationScript.Yaml.Node
import StationScript.Yaml.Tokens

namespace StationScript.Yaml

-- The tokens that are left, and the anchors so far by their names.
structure Remainder where
  tokens : List Token
  anchors : List (String × Nat) := []

namespace Remainder

def drop (r : Remainder) : Remainder :=
  { r with tokens := r.tokens.tail }

-- Gives a name to the next node. Its number is the number of names so far.
def anchor (r : Remainder) (name : Option String) : Option Nat × Remainder :=
  match name with
  | some name =>
    let number := r.anchors.length
    (some number, { r with anchors := (name, number) :: r.anchors.filter (·.1 ≠ name) })
  | none => (none, r)

end Remainder

-- A part of the tree, and what is left behind it unless it is cut.
abbrev Part (α : Type) :=
  α × Option Remainder

-- The handles that hold without a directive.
def defaultHandles : List (String × String) :=
  [("!", "!"), ("!!", "tag:yaml.org,2002:")]

structure Properties where
  anchor : Option String := none
  tag : Option (String × String) := none

-- Reads the properties in front of a node: at most one anchor and one tag, in either order.
def Properties.read : List Token → Properties × List Token
  | .anchor name :: .tag handle text :: rest => (⟨some name, some (handle, text)⟩, rest)
  | .tag handle text :: .anchor name :: rest => (⟨some name, some (handle, text)⟩, rest)
  | .anchor name :: rest => ({ anchor := some name }, rest)
  | .tag handle text :: rest => ({ tag := some (handle, text) }, rest)
  | rest => ({}, rest)

-- The full text of a tag, if its handle is known.
def resolveTag (handles : List (String × String)) : Option (String × String) → Option (Option String)
  | none => some none
  | some ("", text) => some (some text)
  | some (handle, text) => (handles.lookup handle).map fun meant => some (meant ++ text)

-- Where a node is looked for.
inductive Place
  | block
  -- The value or the key of an entry, whose items need not be indented.
  | entry
  | brackets
  deriving DecidableEq, Repr

-- The tokens in front of which an item or a part of an entry may be left out.
def endsItem (t : Token) : Bool :=
  t = .item || t = .blockEnd

def endsLooseItem (t : Token) : Bool :=
  t = .item || t = .key || t = .value || t = .blockEnd

def endsPart (t : Token) : Bool :=
  t = .key || t = .value || t = .blockEnd

def endsListPart (t : Token) : Bool :=
  t = .separator || t = .listClose

def endsMapPart (t : Token) : Bool :=
  t = .separator || t = .mapClose

-- What comes next in brackets.
inductive Ahead
  | close
  | element (r : Remainder)
  | fault

-- Looks behind the separator, which is due unless the brackets were just opened.
def ahead (closing : Token) (first : Bool) (r : Remainder) : Ahead :=
  match r.tokens with
  | [] => .fault
  | t :: rest =>
    if t = closing then .close
    else if first then .element r
    else if t ≠ .separator then .fault
    else
      match rest with
      | [] => .fault
      | t :: _ => if t = closing then .close else .element r.drop

-- What is left behind closed brackets, of which a separator may be left too.
def closeBrackets (r : Remainder) : Remainder :=
  if r.tokens.head? = some .separator then r.drop.drop else r.drop

mutual

def node (fuel : Nat) (handles : List (String × String)) (place : Place) (r : Remainder) : Part Node :=
  match fuel, r.tokens with
  | _ + 1, .alias name :: _ =>
    match r.anchors.lookup name with
    | some number => (.alias number, some r.drop)
    | none => (.cut, none)
  | fuel + 1, all =>
    let (properties, tokens) := Properties.read all
    match resolveTag handles properties.tag, tokens with
    | none, _ | _, [] => (.cut, none)
    | some tag, t :: _ =>
      let (anchor, r) := { r with tokens }.anchor properties.anchor
      let sequence (l : Part (List Node)) : Part Node := (.sequence anchor tag l.1, l.2)
      let mapping (l : Part (List (Node × Node))) : Part Node := (.mapping anchor tag l.1, l.2)
      let block := place != .brackets
      match t, block with
      | .scalar text style, _ =>
        (.scalar anchor ⟨text, style, tag.filter (· ≠ "!")⟩, some r.drop)
      | .listOpen, _ => sequence (listItems fuel handles true r.drop)
      | .mapOpen, _ => mapping (mapEntries fuel handles true r.drop)
      | .itemsStart, true => sequence (blockItems fuel handles false r.drop)
      | .entriesStart, true => mapping (blockEntries fuel handles r.drop)
      | _, _ =>
        if t = .item ∧ place = .entry then sequence (blockItems fuel handles true r)
        else if properties.anchor.isSome || tag.isSome then
          (.scalar anchor { text := "", tag }, some r)
        else (.cut, none)
  | 0, _ => (.cut, none)

-- Reads a node that may be left out in front of some tokens.
def optional (fuel : Nat) (handles : List (String × String)) (place : Place) (ends : Token → Bool)
    (r : Remainder) : Part Node :=
  match fuel, r.tokens with
  | fuel + 1, t :: _ => if ends t then (.empty, some r) else node fuel handles place r
  | _, _ => (.cut, none)

def marked (fuel : Nat) (handles : List (String × String)) (place : Place) (ends : Token → Bool)
    (r : Remainder) : Part Node :=
  match fuel, r.tokens with
  | fuel + 1, .value :: _ => optional fuel handles place ends r.drop
  | _ + 1, _ :: _ => (.empty, some r)
  | _, _ => (.cut, none)

-- Reads items that stand below each other. A loose list is not indented, and ends in front of any other
-- token.
def blockItems (fuel : Nat) (handles : List (String × String)) (loose : Bool) (r : Remainder) :
    Part (List Node) :=
  match fuel, r.tokens with
  | fuel + 1, .item :: _ =>
    match optional fuel handles .block (if loose then endsLooseItem else endsItem) r.drop with
    | (n, none) => ([n], none)
    | (n, some r) =>
      let (l, r) := blockItems fuel handles loose r
      (n :: l, r)
  | _ + 1, t :: _ =>
    if loose then ([], some r)
    else if t = .blockEnd then ([], some r.drop)
    else ([.cut], none)
  | _, _ => ([.cut], none)

def blockEntries (fuel : Nat) (handles : List (String × String)) (r : Remainder) :
    Part (List (Node × Node)) :=
  match fuel, r.tokens with
  | fuel + 1, .key :: _ =>
    match optional fuel handles .entry endsPart r.drop with
    | (k, none) => ([(k, .cut)], none)
    | (k, some r) =>
      match marked fuel handles .entry endsPart r with
      | (v, none) => ([(k, v)], none)
      | (v, some r) =>
        let (l, r) := blockEntries fuel handles r
        ((k, v) :: l, r)
  | _ + 1, .blockEnd :: _ => ([], some r.drop)
  | _, _ => ([(.cut, .cut)], none)

def listItems (fuel : Nat) (handles : List (String × String)) (first : Bool) (r : Remainder) :
    Part (List Node) :=
  match fuel, ahead .listClose first r with
  | fuel + 1, .element r =>
    let item := if r.tokens.head? = some .key then pair fuel handles r.drop else node fuel handles .brackets r
    match item with
    | (n, none) => ([n], none)
    | (n, some r) =>
      let (l, r) := listItems fuel handles false r
      (n :: l, r)
  | _ + 1, .close => ([], some (closeBrackets r))
  | _, _ => ([.cut], none)

-- Reads an entry that stands in a list, as a map of its own. A key that is left out takes the token behind it
-- along.
def pair (fuel : Nat) (handles : List (String × String)) (r : Remainder) : Part Node :=
  match fuel, r.tokens with
  | fuel + 1, t :: _ =>
    let key := if endsListPart t || t = .value then (.empty, some r.drop) else node fuel handles .brackets r
    match key with
    | (k, none) => (.mapping none none [(k, .cut)], none)
    | (k, some r) =>
      match marked fuel handles .brackets endsListPart r with
      | (v, none) => (.mapping none none [(k, v)], none)
      | (v, some r) =>
        if r.tokens.isEmpty then (.mapping none none [(k, v), (.cut, .cut)], none)
        else (.mapping none none [(k, v)], some r)
  | _, _ => (.mapping none none [(.cut, .cut)], none)

def mapEntries (fuel : Nat) (handles : List (String × String)) (first : Bool) (r : Remainder) :
    Part (List (Node × Node)) :=
  match fuel, ahead .mapClose first r with
  | fuel + 1, .element r =>
    let isKey := r.tokens.head? = some .key
    let key :=
      if isKey then optional fuel handles .brackets (fun t => endsMapPart t || t = .value) r.drop
      else node fuel handles .brackets r
    match key with
    | (k, none) => ([(k, .cut)], none)
    | (k, some r) =>
      let value :=
        if isKey then marked fuel handles .brackets endsMapPart r
        else if r.tokens.isEmpty then (.cut, none)
        else (.empty, some r)
      match value with
      | (v, none) => ([(k, v)], none)
      | (v, some r) =>
        let (l, r) := mapEntries fuel handles false r
        ((k, v) :: l, r)
  | _ + 1, .close => ([], some (closeBrackets r))
  | _, _ => ([(.cut, .cut)], none)

end

structure Directives where
  version : Bool := false
  handles : List (String × String) := []

-- Reads the directives in front of a document. Neither a version nor a handle may be told twice.
def Directives.read (d : Directives) : List Token → Option (Directives × List Token)
  | .version major minor :: rest =>
    if d.version || major ≠ 1 || (minor ≠ 1 && minor ≠ 2) then none
    else Directives.read { d with version := true } rest
  | .handle name meant :: rest =>
    if (d.handles.lookup name).isSome then none
    else Directives.read { d with handles := (name, meant) :: d.handles } rest
  | rest => some (d, rest)

-- Whether a document without content ends in front of this token.
def endsDocument : Token → Bool
  | .version _ _ | .handle _ _ | .documentStart | .documentEnd | .streamEnd => true
  | _ => false

-- The root of a document behind its start. Every token is looked at a few times at most, which bounds the
-- rounds.
def rootNode (handles : List (String × String)) (explicit : Bool) (tokens : List Token) : Part Node :=
  let fuel := 4 * tokens.length + 4
  if explicit then optional fuel handles .block endsDocument { tokens } else node fuel handles .block { tokens }

def endsStream (tokens : List Token) : Bool :=
  tokens.dropWhile (· = .documentEnd) = [.streamEnd]

def Document.ofTokens (tokens : List Token) : Document :=
  if tokens = [.streamEnd] then ⟨.empty, true⟩
  else
    let start : Part Node :=
      match Directives.read {} tokens with
      | some (d, .documentStart :: rest) => rootNode (d.handles ++ defaultHandles) true rest
      | some (_, rest) => if rest.length = tokens.length then rootNode defaultHandles false rest else (.cut, none)
      | none => (.cut, none)
    ⟨start.1, start.2.any fun r => endsStream r.tokens⟩

def Document.ofText (text : String) : Document :=
  .ofTokens (tokens text.toList)

end StationScript.Yaml
