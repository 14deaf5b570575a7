import TryResources.Yaml.Token

/-!
# Nodes of a document

A document is a tree of scalars, sequences and mappings. A node may be anchored; other places of
the document refer to it by the number of its anchor.

Anchors are numbered by how many names have been anchored before. A name that is anchored again
takes such a number too, which the next new name then shares; of several nodes with one number the
last in the document counts (`Node.anchored?`).
-/

namespace TryResources.Yaml

/-- A node of a document. -/
inductive Node
  | scalar (anchor : Option Nat) (tag : Option TagText) (style : Style) (text : String)
  | sequence (anchor : Option Nat) (items : List Node)
  | mapping (anchor : Option Nat) (entries : List (Node × Node))
  /-- A place that refers to the node with this anchor. -/
  | reference (anchor : Nat)
  deriving Repr

namespace Node

/-- The number of an anchored node, and the node. -/
def ownAnchor (n : Node) : List (Nat × Node) :=
  match n with
  | scalar (some a) _ _ _ | sequence (some a) _ | mapping (some a) _ => [(a, n)]
  | _ => []

mutual

/-- The anchored nodes of a tree, in the order of the document. -/
def anchored (n : Node) : List (Nat × Node) :=
  n.ownAnchor ++ match n with
    | sequence _ items => anchoredItems items
    | mapping _ entries => anchoredEntries entries
    | _ => []

/-- The anchored nodes among items of a sequence. -/
def anchoredItems : List Node → List (Nat × Node)
  | [] => []
  | n :: ns => n.anchored ++ anchoredItems ns

/-- The anchored nodes among entries of a mapping. -/
def anchoredEntries : List (Node × Node) → List (Nat × Node)
  | [] => []
  | (k, v) :: es => k.anchored ++ v.anchored ++ anchoredEntries es

end

/-- The node that a reference stands for. -/
def anchored? (root : Node) (anchor : Nat) : Option Node :=
  root.anchored.reverse.lookup anchor

mutual

/-- The length of a tree: one for each scalar and reference, two for the brackets of each
collection. -/
def length : Node → Nat
  | sequence _ items => 2 + lengthItems items
  | mapping _ entries => 2 + lengthEntries entries
  | _ => 1

/-- The length of the items of a sequence. -/
def lengthItems : List Node → Nat
  | [] => 0
  | n :: ns => n.length + lengthItems ns

/-- The length of the entries of a mapping. -/
def lengthEntries : List (Node × Node) → Nat
  | [] => 0
  | (k, v) :: es => k.length + v.length + lengthEntries es

end

/-- A plain scalar without text, which stands where nothing is written. -/
def empty : Node := scalar none none .plain ""

end Node

end TryResources.Yaml
