/-!
# Syntax trees

A parser makes a tree of a source text. Every node covers some bytes of the text and has
a kind; it may fill a field of the node around it. A site is a node where it stands in its
tree: what is around it, and what stands right before it. No parser stands in this module:
the theory holds for all of them, and says where it needs one to make a certain tree.
-/

namespace DocblockScan.SourceCode

/-- A node: its kind, the field that it fills, the bytes that it covers, from `start` up to
but not including `stop`, and the nodes right inside it, in source order. -/
inductive Node where
  | mk (kind : String) (field : Option String) (start stop : Nat) (children : List Node)
deriving Repr

/-- What makes trees of source texts, or refuses them. -/
abbrev Parser := String → Option Node

namespace Node

/-- The kind of a node. -/
def kind : Node → String
  | .mk kind _ _ _ _ => kind

/-- The field that a node fills. -/
def field : Node → Option String
  | .mk _ field _ _ _ => field

/-- The first byte of a node. -/
def start : Node → Nat
  | .mk _ _ start _ _ => start

/-- The byte after the last one of a node. -/
def stop : Node → Nat
  | .mk _ _ _ stop _ => stop

/-- The nodes right inside a node. -/
def children : Node → List Node
  | .mk _ _ _ _ children => children

/-- The text that a node covers, given all bytes of the source. -/
def text? (bytes : ByteArray) (node : Node) : Option String :=
  String.fromUTF8? (bytes.extract node.start node.stop)

/-- The first node inside a node that fills a field. -/
def child? (node : Node) (field : String) : Option Node :=
  node.children.find? (·.field == some field)

end Node

/-- A node of a tree with its surroundings. The path of a site is its number among its
siblings, then the number of the node around it, and so on up to the root, whose path is
empty; so no two sites of a tree have the same path. -/
structure Site where
  node : Node
  path : List Nat
  /-- The nodes around this one, innermost first. -/
  outer : List Node
  /-- The sibling right before this one. -/
  previous : Option Node

mutual

/-- The site of a node and the sites of all nodes in it, in source order: a node comes
before what is in it. -/
def Node.sites (path : List Nat) (outer : List Node) (previous : Option Node) :
    Node → List Site
  | .mk kind field start stop children =>
      let node := .mk kind field start stop children
      ⟨node, path, outer, previous⟩ :: sitesOf path (node :: outer) 0 none children

/-- The sites of some siblings and of all nodes in them. The first of them has a number and
a sibling before it. -/
def sitesOf (path : List Nat) (outer : List Node) (number : Nat) (previous : Option Node) :
    List Node → List Site
  | [] => []
  | node :: others =>
      node.sites (number :: path) outer previous ++
        sitesOf path outer (number + 1) (some node) others

end

/-- All sites of a tree. -/
def Node.allSites (tree : Node) : List Site :=
  tree.sites [] [] none

end DocblockScan.SourceCode
