import ByteEmbed.Yaml.Token

/-!
# ByteEmbed.Yaml.Node — nodes, and the document they make.

A node is a scalar or a collection, with its tag if it has one, or a reference.  A reference keeps
the number of its anchor, so a collection may refer to itself; `Document.resolve` looks up what it
stands for.
-/

namespace ByteEmbed.Yaml

/-- A node of a document. -/
inductive Node where
  | scalar (tag : Option String) (style : Style) (text : String)
  | sequence (tag : Option String) (items : List Node)
  | mapping (tag : Option String) (entries : List (Node × Node))
  /-- What the anchor of a number names. -/
  | reference (number : Nat)
deriving Repr

/-- The node that stands for one left out. -/
def Node.empty : Node := scalar none .plain ""

/-! ## Anchors -/

/-- The anchors of a document.  A declaration takes as its number how many names are known by then,
its own among them if it was declared before.  So a name that is declared again may come to share
its number with another name. -/
structure Anchors where
  /-- The number of each known name. -/
  numbers : List (String × Nat)
  /-- The number of each declaration and the node it names, in the order of the text. -/
  nodes : Array (Nat × Node)
deriving Repr

namespace Anchors

/-- No anchor at all. -/
def empty : Anchors := { numbers := [], nodes := #[] }

/-- Declares a name, whose node is still to be read. -/
def declare (anchors : Anchors) (name : String) : Anchors :=
  let number := anchors.numbers.length
  { numbers := (name, number) :: anchors.numbers.filter (·.1 != name)
    nodes := anchors.nodes.push (number, .empty) }

/-- Gives the declaration at a place among the declarations its node. -/
def complete (anchors : Anchors) (place : Nat) (node : Node) : Anchors :=
  { anchors with nodes := anchors.nodes.modify place fun (number, _) => (number, node) }

/-- The number of a name. -/
def number? (anchors : Anchors) (name : String) : Option Nat := anchors.numbers.lookup name

/-- The node of a number: the one declared last, wherever the reference stands. -/
def node? (anchors : Anchors) (number : Nat) : Option Node :=
  anchors.nodes.toList.reverse.lookup number

end Anchors

/-! ## Documents -/

/-- A document: its root, and the anchors that its references name. -/
structure Document where
  root : Node
  anchors : Anchors
deriving Repr

/-- What a node stands for.  An anchor never names a reference, so one look-up is enough. -/
def Document.resolve (document : Document) : Node → Node
  | .reference number => (document.anchors.node? number).getD .empty
  | node => node

end ByteEmbed.Yaml
