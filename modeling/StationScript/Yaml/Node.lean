import StationScript.Yaml.Token

namespace StationScript.Yaml

structure Scalar where
  text : String
  style : Style := .plain
  tag : Option String := none
  deriving DecidableEq, Repr

-- An anchor is the number that aliases refer to.
inductive Node
  | scalar (anchor : Option Nat) (s : Scalar)
  | sequence (anchor : Option Nat) (tag : Option String) (items : List Node)
  | mapping (anchor : Option Nat) (tag : Option String) (entries : List (Node × Node))
  | alias (number : Nat)
  -- The place where the document is malformed.
  | cut

namespace Node

def empty : Node :=
  .scalar none { text := "" }

mutual

-- Whether the document is malformed within this node.
def isCut : Node → Bool
  | .sequence _ _ items => itemsCut items
  | .mapping _ _ entries => entriesCut entries
  | .cut => true
  | .scalar _ _ | .alias _ => false

def itemsCut : List Node → Bool
  | [] => false
  | n :: rest => n.isCut || itemsCut rest

def entriesCut : List (Node × Node) → Bool
  | [] => false
  | (k, v) :: rest => k.isCut || v.isCut || entriesCut rest

end

mutual

-- The number of starts, values and ends that make up a node.
def size : Node → Nat
  | .sequence _ _ items => 1 + itemsSize items + (if itemsCut items then 0 else 1)
  | .mapping _ _ entries => 1 + entriesSize entries + (if entriesCut entries then 0 else 1)
  | .cut => 0
  | .scalar _ _ | .alias _ => 1

def itemsSize : List Node → Nat
  | [] => 0
  | n :: rest => n.size + itemsSize rest

def entriesSize : List (Node × Node) → Nat
  | [] => 0
  | (k, v) :: rest => k.size + v.size + entriesSize rest

end

-- A node under its number, if it has one.
def entry (n : Node) : Option Nat → List (Nat × Node)
  | some number => [(number, n)]
  | none => []

mutual

-- The nodes with anchors in the order in which they start.
def anchored : Node → List (Nat × Node)
  | .scalar a s => entry (.scalar a s) a
  | .sequence a t items => entry (.sequence a t items) a ++ itemsAnchored items
  | .mapping a t entries => entry (.mapping a t entries) a ++ entriesAnchored entries
  | .alias _ | .cut => []

def itemsAnchored : List Node → List (Nat × Node)
  | [] => []
  | n :: rest => n.anchored ++ itemsAnchored rest

def entriesAnchored : List (Node × Node) → List (Nat × Node)
  | [] => []
  | (k, v) :: rest => k.anchored ++ v.anchored ++ entriesAnchored rest

end

end Node

-- A document, and whether the text ends with it.
structure Document where
  root : Node
  complete : Bool

-- The node that an alias refers to: the last one with its number.
def Document.target? (d : Document) (number : Nat) : Option Node :=
  d.root.anchored.reverse.lookup number

end StationScript.Yaml
