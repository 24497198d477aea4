import Statevector.Yaml.Token

/-!
# Nodes

A node is a scalar, a collection, a node with an anchor, or an alias of one. Anchors are numbered.

* `Node`; `Node.empty`: what stands where nothing is written;
* `Node.anchored`: the nodes with an anchor, in the order in which they start;
* `Node.target`: the node that a node of a document stands for.
-/

namespace Statevector.Yaml

/-- A node of a document. -/
inductive Node
  | scalar (style : Style) (tag : Option (List Char)) (text : List Char)
  | sequence (items : List Node)
  | mapping (entries : List (Node × Node))
  | anchored (anchor : Nat) (node : Node)
  | reference (anchor : Nat)
deriving Repr, Inhabited

namespace Node

/-- What stands where nothing is written. -/
def empty : Node := scalar .plain none []

mutual

/-- The nodes with an anchor, in the order in which they start. -/
def anchors : Node → List (Nat × Node)
  | scalar .. | reference _ => []
  | sequence items => anchorsOfItems items
  | mapping entries => anchorsOfEntries entries
  | anchored k n => (k, n) :: anchors n

/-- The nodes with an anchor among those of a sequence. -/
def anchorsOfItems : List Node → List (Nat × Node)
  | [] => []
  | n :: items => anchors n ++ anchorsOfItems items

/-- The nodes with an anchor among those of a mapping. -/
def anchorsOfEntries : List (Node × Node) → List (Nat × Node)
  | [] => []
  | (k, v) :: entries => anchors k ++ anchors v ++ anchorsOfEntries entries

end

/-- The node that `n` stands for in the document `root`. Of several nodes with the anchor of an
alias, it means the last. -/
def target (root n : Node) : Node :=
  match n with
  | anchored _ n => n
  | reference k => (root.anchors.reverse.lookup k).getD empty
  | n => n

end Node

end Statevector.Yaml
