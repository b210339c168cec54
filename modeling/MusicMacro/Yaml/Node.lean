import MusicMacro.Yaml.Token

/-!
# YAML documents

* `Properties` : the tag and the number that a node is given;
* `Node` : a node of a document; a reference names another node by its number;
* `Document.follow` : the node that a node stands for.
-/

namespace MusicMacro.Yaml

/-- What stands before a node. -/
structure Properties where
  tag? : Option Tag := none
  /-- The number by which aliases refer to it. -/
  anchor? : Option Nat := none
  deriving DecidableEq, Repr, Inhabited

/-- A node of a document. -/
inductive Node where
  | scalar (properties : Properties) (style : Style) (text : String)
  | sequence (properties : Properties) (items : List Node)
  | mapping (properties : Properties) (entries : List (Node × Node))
  | reference (anchor : Nat)
  deriving Repr, Inhabited

namespace Node

def absent : Node := scalar {} .plain ""

def tag? : Node → Option Tag
  | scalar p _ _ | sequence p _ | mapping p _ => p.tag?
  | reference _ => none

def numbered (p : Properties) (node : Node) : List (Nat × Node) := p.anchor?.toList.map (·, node)

mutual

/-- A node and the nodes in it, those that have numbers, in the order in which they begin. -/
def anchored : Node → List (Nat × Node)
  | scalar p style text => numbered p (scalar p style text)
  | sequence p items => numbered p (sequence p items) ++ anchoredItems items
  | mapping p entries => numbered p (mapping p entries) ++ anchoredEntries entries
  | reference _ => []

def anchoredItems : List Node → List (Nat × Node)
  | [] => []
  | node :: rest => anchored node ++ anchoredItems rest

def anchoredEntries : List (Node × Node) → List (Nat × Node)
  | [] => []
  | (key, value) :: rest => anchored key ++ anchored value ++ anchoredEntries rest

end

end Node

/-- A document, with the nodes that aliases can stand for. -/
structure Document where
  root : Node
  /-- The nodes that have numbers, in the order in which they begin. -/
  anchored : List (Nat × Node)

namespace Document

def ofNode (root : Node) : Document := ⟨root, root.anchored⟩

/-- The node that a node stands for. Where a number has been given more than once, the last node under it counts. -/
def follow (d : Document) (node : Node) : Node :=
  match node with
  | .reference anchor => (d.anchored.reverse.lookup anchor).getD .absent
  | _ => node

end Document

end MusicMacro.Yaml
