import LifecycleFlow.Yaml.Tag

/-!
# YAML trees

YAML documents as trees. Anchors are numbered; an alias holds the number of the anchor it refers
to, which may be the anchor of a node around it.
-/
namespace LifecycleFlow.Yaml

/-- What may be written before any node: an anchor and a tag. -/
structure Properties where
  anchor : Option Nat := none
  tag : Option Address := none
  deriving DecidableEq

inductive Node
  | reference (anchor : Nat)
  | scalar (properties : Properties) (text : String) (plain : Bool)
  | sequence (properties : Properties) (items : List Node)
  | mapping (properties : Properties) (entries : List (Node × Node))

namespace Node

def empty : Node :=
  scalar {} "" true

def properties : Node → Properties
  | reference _ => {}
  | scalar p _ _ => p
  | sequence p _ => p
  | mapping p _ => p

mutual

/-- The number of tokens that a node takes when each collection has one at either end. -/
def size : Node → Nat
  | reference _ => 1
  | scalar _ _ _ => 1
  | sequence _ items => 2 + sizeItems items
  | mapping _ entries => 2 + sizeEntries entries

def sizeItems : List Node → Nat
  | [] => 0
  | n :: r => n.size + sizeItems r

def sizeEntries : List (Node × Node) → Nat
  | [] => 0
  | (k, v) :: r => k.size + v.size + sizeEntries r

end

/-- A node under its anchor, if it has one. -/
def anchoredHere (n : Node) : List (Nat × Node) :=
  (n.properties.anchor.map fun a => (a, n)).toList

mutual

/-- The nodes with anchors, in the order in which they begin. -/
def anchored : Node → List (Nat × Node)
  | reference _ => []
  | scalar p text plain => anchoredHere (scalar p text plain)
  | sequence p items => anchoredHere (sequence p items) ++ anchoredItems items
  | mapping p entries => anchoredHere (mapping p entries) ++ anchoredEntries entries

def anchoredItems : List Node → List (Nat × Node)
  | [] => []
  | n :: r => n.anchored ++ anchoredItems r

def anchoredEntries : List (Node × Node) → List (Nat × Node)
  | [] => []
  | (k, v) :: r => k.anchored ++ v.anchored ++ anchoredEntries r

end

end Node

/-- A document: its node, unless the text is empty, and the nodes that aliases refer to. Of several
nodes with one number the last one counts. -/
structure Document where
  root : Option Node
  anchored : List (Nat × Node)
  size : Nat

def Document.ofNode (root : Option Node) : Document where
  root
  anchored := (root.map fun n => n.anchored.reverse).getD []
  size := (root.map Node.size).getD 1

def Document.find? (d : Document) (anchor : Nat) : Option Node :=
  (d.anchored.find? fun a => a.1 == anchor).map Prod.snd

end LifecycleFlow.Yaml
