import DocGraph.Graph.Anchors
import DocGraph.Graph.Permalinks
import DocGraph.Graph.RefId

namespace DocGraph

/-!
# The linked graph

Everything that documentation needs to know of its objects:

* `Graph`, `Arena.toGraph` — objects with their hierarchy, permalinks and anchors;
* `Graph.members`, `Graph.roots` — the objects of a collection, and those without a
  parent, in document order;
* `Graph.linkTo` — where a reference leads;
* `Graph.Trials`, `Graph.tryReferences` — every reference that stays within the project, tried out:
  those of one object are collected on a walk through its compound, and then tried one by one.
-/

/-- Objects with everything that links them. -/
structure Graph extends Arena where
  hierarchy : Hierarchy
  inheritance : Inheritance
  permalinks : Permalinks
  anchors : Anchors

/-- The anchors in the compounds of all objects. -/
def Arena.anchors (a : Arena) : Anchors :=
  a.objects.zipIdx.foldl (fun anchors (o, i) =>
    match a.document.compound? o.compound with
    | some n => anchors.add i n
    | none => anchors) {}

/-- Link all objects, with the warnings in order. -/
def Arena.toGraph (a : Arena) : Graph × List LinkProblem :=
  let (hierarchy, inheritance, linking) := a.link
  let (permalinks, naming) := a.assignPermalinks hierarchy
  ({ a with hierarchy, inheritance, permalinks, anchors := a.anchors }, linking ++ naming)

namespace Graph

/-- The permalink of an object. -/
def permalink (g : Graph) (x : Nat) : String := (g.permalinks.of? x).getD ""

/-- The object to whose page a permalink belongs. -/
def holder? (g : Graph) (permalink : String) : Option Nat :=
  g.permalinks.owner? permalink

/-- The permalink of the page of a compound. -/
def permalinkOf? (g : Graph) (id : String) : Option String :=
  (g.lookup? id).map g.permalink

/-! ### Collections -/

/-- The objects of a collection, in document order. -/
def members (g : Graph) (c : Collection) : List Nat :=
  (g.objects.zipIdx.filter (·.1.collection = c)).map (·.2)

/-- The objects of a collection that have no parent, in document order. -/
def roots (g : Graph) (c : Collection) : List Nat :=
  (g.members c).filter fun x => (g.hierarchy.parent? x).isNone

/-! ### References -/

/-- The object in whose page the target of a reference is: that of the compound which the id
begins with, or that with such an entry in a table of contents, or that with such an anchor. -/
def pageOf? (g : Graph) (refid : String) : Option Nat :=
  g.lookup? (RefId.owner refid) <|> g.anchors.contents? refid <|> g.anchors.inline? refid

/-- The link to the target of a reference: a page, or a place within a page. -/
def linkTo (g : Graph) (refid : String) (kind : RefKind) :
    Except LinkProblem String :=
  let link? := match kind with
    | .compound => g.permalinkOf? refid
    | .member | .xrefSect =>
      (g.pageOf? refid).map fun x => s!"{g.permalink x}#{RefId.fragment refid}"
  match link? with
  | some link => .ok link
  | none => .error (.unresolvedReference none refid kind)

/-- The reference that a node is, unless another project resolves it. -/
def internalRef? (n : Node) : Option Ref :=
  match n.data with
  | .ref r => if r.external.isNone then some r else none
  | _ => none

/-- What has come of references so far, while they are tried out object after object. -/
structure Trials where
  /-- The references that have been met but not tried, in order. -/
  met : Array Ref := #[]
  /-- How many led somewhere. -/
  resolved : Nat := 0
  /-- A warning for each of the others, in order. -/
  warnings : Array LinkProblem := #[]

namespace Trials

/-- On the way through a compound, references that stay within the project are met. -/
def meet (t : Trials) (n : Node) : Trials :=
  match internalRef? n with
  | some r => { t with met := t.met.push r }
  | none => t

/-- A reference is tried, with a warning that names the source if it leads nowhere. -/
def attempt (t : Trials) (g : Graph) (source : String) (r : Ref) : Trials :=
  match g.linkTo r.refid r.kind with
  | .ok _ => { t with resolved := t.resolved + 1 }
  | .error w => { t with warnings := t.warnings.push (w.withSource source) }

/-- All references that have been met are tried, and none of them is left. -/
def drain (t : Trials) (g : Graph) (source : String) : Trials :=
  t.met.foldl (·.attempt g source ·) { t with met := #[] }

/-- The references within the compound of the object at a place are met, and then tried. -/
def visit (t : Trials) (g : Graph) (o : Object) (place : Nat) : Trials :=
  match g.node? place with
  | some n => ((n.entered fun _ => false).foldl meet t).drain g o.id
  | none => t

end Trials

/-- Try out the references within the compounds of all objects: how many lead somewhere, and a
warning for each of the others. -/
def tryReferences (g : Graph) : Nat × List LinkProblem :=
  let tried := g.objects.zipIdx.foldl (fun (t : Trials) (o, i) => t.visit g o i) {}
  (tried.resolved, tried.warnings.toList)

end Graph

end DocGraph
