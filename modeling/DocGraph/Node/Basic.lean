import DocGraph.Markup.Content
import DocGraph.Node.Data
import DocGraph.Node.Kind

namespace DocGraph

/-!
# Nodes

The typed tree of a compound, in which every element that the schema accepts is a node:

* `Node` — its kind, its data and its content.  Children that the data stands for are kept in the
  content too, so whoever reads the content sees everything in document order;
* `Node.children`, `Node.childAt?`, `Node.hoisted?` — views of the content;
* `Node.text` — the literal text of a node and all below it;
* `Node.descend?`, `Node.updateAt` — the node at a path, by places in the content.
-/

/-- A node of the typed tree. -/
structure Node where
  kind : NodeKind
  data : NodeData := .bare
  content : List (Content Node) := []
  /-- A hint to renderers, not to wrap the node in a paragraph. -/
  skipParagraph : Bool := false

namespace Node

/-! ### Equality -/

mutual

/-- Whether two nodes have the same kind, data, content and hints. -/
def same : Node → Node → Bool
  | ⟨k, d, c, s⟩, ⟨k', d', c', s'⟩ => k == k' && d == d' && s == s' && sameContent c c'

/-- Whether two contents are the same piece by piece. -/
def sameContent : List (Content Node) → List (Content Node) → Bool
  | [], [] => true
  | .text s :: r, .text s' :: r' => s == s' && sameContent r r'
  | .child n :: r, .child n' :: r' => same n n' && sameContent r r'
  | _, _ => false

end

instance : BEq Node := ⟨same⟩

/-! ### Views -/

/-- The name of the element that the node was built from; entities keep their own tag. -/
def elementName (n : Node) : String :=
  match n.data with
  | .entity name _ => name
  | _ => n.kind.tag

/-- The child nodes, in order. -/
def children (n : Node) : List Node := Content.children n.content

/-- The child nodes of a kind, in order. -/
def childrenOf (n : Node) (kind : NodeKind) : List Node := n.children.filter (·.kind = kind)

/-- The first child node of a kind. -/
def firstOf? (n : Node) (kind : NodeKind) : Option Node := n.children.find? (·.kind = kind)

/-- The child node at a place of the content. -/
def childAt? (n : Node) (place : Nat) : Option Node := n.content[place]?.bind (·.child?)

/-- The character data at a place of the content. -/
def textAt? (n : Node) (place : Nat) : Option String := n.content[place]?.bind (·.text?)

/-- The child node that a place held by the data stands for. -/
def hoisted? (n : Node) (place : Option Nat) : Option Node := place.bind n.childAt?

mutual

/-- The character data of a node and of everything below it, in document order. -/
def text : Node → String
  | ⟨_, _, c, _⟩ => textOf c

/-- The character data of a content. -/
def textOf : List (Content Node) → String
  | [] => ""
  | .text s :: rest => s ++ textOf rest
  | .child n :: rest => n.text ++ textOf rest

end

/-! ### Paths -/

/-- The node at a path of places; none if it leads out of the tree or to character data. -/
def descend? (n : Node) : List Nat → Option Node
  | [] => some n
  | place :: path => (n.childAt? place).bind (descend? · path)

/-- Change the node at a path of places. -/
def updateAt (f : Node → Node) : List Nat → Node → Node
  | [], n => f n
  | place :: path, n =>
    let change : Content Node → Content Node
      | .text s => .text s
      | .child c => .child (updateAt f path c)
    { n with content := n.content.modify place change }

/-! ### Data by kind -/

/-- The data of a compound. -/
def asCompound? (n : Node) : Option CompoundDef :=
  match n.data with
  | .compound d => some d
  | _ => none

/-- The data of a member. -/
def asMember? (n : Node) : Option MemberDef :=
  match n.data with
  | .member d => some d
  | _ => none

end Node

end DocGraph
