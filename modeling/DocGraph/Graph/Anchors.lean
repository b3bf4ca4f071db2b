import DocGraph.Node.Visit

namespace DocGraph

/-!
# Anchors

References may lead into the middle of a page, to an entry of a table of contents or to an anchor.

* `Node.contentsId?`, `Node.anchorId?` — the id that a node gives to its place in the page;
* `Anchors`, `Anchors.add` — all such ids, with the object in whose page each one is.  Program
  listings and lists of members hold references only and are not searched;
* `Anchors.contents?`, `Anchors.inline?` — the first object that has an id.
-/

namespace Node

/-- The id of an entry of a table of contents. -/
def contentsId? (n : Node) : Option String :=
  match n.data with
  | .tocItem id => some id
  | .tocSect _ reference => some reference
  | _ => none

/-- The id of a section or an anchor. -/
def anchorId? (n : Node) : Option String :=
  match n.data with
  | .sect _ id _ => id
  | .anchor id => some id
  | .xrefSect id _ => some id
  | _ => none

/-- Whether nothing below a node is searched for anchors. -/
def hidesAnchors (n : Node) : Bool :=
  n.kind == .programListing || n.kind == .listOfAllMembers

end Node

/-- Places within pages, by id; the first object with an id owns it. -/
structure Anchors where
  contents : List (String × Nat) := []
  inline : List (String × Nat) := []
deriving DecidableEq, Repr

namespace Anchors

/-- The ids of a compound, which belong to an object unless another has them. -/
def add (a : Anchors) (owner : Nat) (compound : Node) : Anchors :=
  let nodes := compound.entered Node.hidesAnchors
  ⟨a.contents ++ (nodes.filterMap Node.contentsId?).map (·, owner),
   a.inline ++ (nodes.filterMap Node.anchorId?).map (·, owner)⟩

/-- The object in whose page a table of contents has an entry with this id. -/
def contents? (a : Anchors) (id : String) : Option Nat := a.contents.lookup id

/-- The object in whose page there is an anchor with this id. -/
def inline? (a : Anchors) (id : String) : Option Nat := a.inline.lookup id

end Anchors

end DocGraph
