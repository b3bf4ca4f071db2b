import DocGraph.Graph.Inheritance
import DocGraph.Graph.Problem
import DocGraph.Object.Arena

namespace DocGraph

/-!
# Parents and children

Objects claim others as their children.  An object has the first parent that claims it, and a class
is a child of each of its bases, the first of which is its parent.  A claim that would make an
object its own ancestor is refused, so every chain of parents ends.

* `Link`, `Hierarchy` — the claims accepted, in order;
* `Hierarchy.parent?`, `Hierarchy.children`, `Hierarchy.chain` — what follows from them;
* `Claim`, `Arena.claims`, `Decision`, `Arena.decide` — the claims of all objects, and what becomes
  of one of them after those before it;
* `Arena.linkChildren` — the decision on every claim, in order;
* `Arena.inheritance`, `Arena.linkClasses` — relations between classes, and the links made of them.
-/

/-! ### Accepted links -/

/-- An accepted claim. -/
structure Link where
  parent : Nat
  child : Nat
deriving DecidableEq, Repr

/-- The accepted claims, in the order in which they were accepted. -/
abbrev Hierarchy := List Link

namespace Hierarchy

/-- The parent of an object: the first one accepted. -/
def parent? (h : Hierarchy) (x : Nat) : Option Nat := (h.find? (·.child == x)).map (·.parent)

/-- The children of an object, in the order in which they were accepted. -/
def children (h : Hierarchy) (x : Nat) : List Nat := (h.filter (·.parent == x)).map (·.child)

/-- The first `steps` objects that follow on an object when going from parent to parent. -/
def chainFrom (h : Hierarchy) : Nat → Nat → List Nat
  | 0, _ => []
  | steps + 1, x =>
    match h.parent? x with
    | none => []
    | some p => p :: chainFrom h steps p

/-- The parent of an object, the parent of that one, and so on.  Each step follows another link, so
there are no more steps than links. -/
def chain (h : Hierarchy) (x : Nat) : List Nat := h.chainFrom h.length x

end Hierarchy

/-! ### Claims -/

/-- What an object says of another: that the one with this id is related to it. -/
structure Claim where
  claimant : Nat
  target : String
deriving DecidableEq, Repr

/-- What becomes of a claim. -/
inductive Decision where
  | accepted (child : Nat)
  /-- The object has this parent already. -/
  | repeated
  | refused (w : LinkProblem)
deriving DecidableEq, Repr

namespace Arena

/-- The claims that objects make of the ids that `ids` gives for them, in order. -/
def claimsOf (a : Arena) (ids : Object → List String) : List Claim :=
  a.objects.zipIdx.flatMap fun (o, i) => (ids o).map fun id => ⟨i, id⟩

/-- The claims of all objects on their children, in order. -/
def claims (a : Arena) : List Claim := a.claimsOf (·.childIds)

/-- The id of an object. -/
def idOf (a : Arena) (x : Nat) : String := ((a.objects[x]?).map (·.id)).getD ""

/-- The collection of an object. -/
def collectionOf? (a : Arena) (x : Nat) : Option Collection := (a.objects[x]?).map (·.collection)

/-- The object that a claim is about, which has to be in the collection of the claimant. -/
def resolve (a : Arena) (c : Claim) : Except LinkProblem Nat :=
  match a.lookup? c.target with
  | none => .error (.unresolvedReference (some (a.idOf c.claimant)) c.target .compound)
  | some x =>
    match a.collectionOf? c.claimant, a.collectionOf? x with
    | some expected, some found =>
      if found = expected then .ok x
      else .error (.crossCollectionChild (a.idOf c.claimant) c.target expected found)
    | _, _ => .ok x

/-- What becomes of a claim after those accepted before it. -/
def decide (a : Arena) (h : Hierarchy) (c : Claim) : Decision :=
  match a.resolve c with
  | .error w => .refused w
  | .ok child =>
    match h.parent? child with
    | some parent =>
      if parent = c.claimant then .repeated
      else .refused (.multipleParents (a.idOf child) (a.idOf parent) (a.idOf c.claimant))
    | none =>
      if child = c.claimant || (h.chain c.claimant).contains child then
        .refused (.parentCycle (a.idOf c.claimant) (a.idOf child))
      else .accepted child

/-- What has been accepted and reported so far. -/
structure Progress where
  links : Hierarchy := []
  warnings : List LinkProblem := []
deriving DecidableEq, Repr

/-- Decide on one claim. -/
def Progress.step (a : Arena) (p : Progress) (c : Claim) : Progress :=
  match a.decide p.links c with
  | .accepted child => { p with links := p.links ++ [⟨c.claimant, child⟩] }
  | .repeated => p
  | .refused w => { p with warnings := p.warnings ++ [w] }

/-- Decide on the claims of all objects on their children, in order. -/
def linkChildren (a : Arena) : Progress := a.claims.foldl (Progress.step a) {}

/-! ### Classes -/

/-- The claims of classes alone. -/
def classClaims (a : Arena) (ids : Object → List String) : List Claim :=
  a.claimsOf fun o => if o.kind.isClass then ids o else []

/-- Record what claims say, as relations that `edge` makes of a claimant and its target. -/
def recordClaims (a : Arena) (edge : Nat → Nat → Nat × Nat) (claims : List Claim)
    (g : Inheritance × List LinkProblem) : Inheritance × List LinkProblem :=
  claims.foldl (fun (g, warnings) c =>
    match a.resolve c with
    | .ok x => let (base, derived) := edge c.claimant x; (g.add base derived, warnings)
    | .error w => (g, warnings ++ [w])) g

/-- The relations between classes.  The bases that classes list come first, so the first base listed
is the first recorded. -/
def inheritance (a : Arena) : Inheritance × List LinkProblem :=
  a.recordClaims (fun claimant x => (claimant, x)) (a.classClaims (·.derivedIds))
    (a.recordClaims (fun claimant x => (x, claimant)) (a.classClaims (·.baseIds)) ({}, []))

/-- The places of all classes, in order. -/
def classes (a : Arena) : List Nat :=
  (a.objects.zipIdx.filter (·.1.kind.isClass)).map (·.2)

/-- Make a class a child of one of its bases, unless the base derives from the class. -/
def Progress.addBase (a : Arena) (g : Inheritance) (derived : Nat) (p : Progress) (base : Nat) :
    Progress :=
  if g.isAncestor derived base then
    { p with warnings := p.warnings ++ [.parentCycle (a.idOf base) (a.idOf derived)] }
  else { p with links := p.links ++ [⟨base, derived⟩] }

/-- Make every class a child of its bases. -/
def linkClasses (a : Arena) (g : Inheritance) (p : Progress) : Progress :=
  a.classes.foldl (fun p x => (g.bases x).foldl (Progress.addBase a g x) p) p

/-- All links between objects, the relations between classes, and the warnings in order. -/
def link (a : Arena) : Hierarchy × Inheritance × List LinkProblem :=
  let tree := a.linkChildren
  let (g, warnings) := a.inheritance
  let all := a.linkClasses g { tree with warnings := tree.warnings ++ warnings }
  (all.links, g, all.warnings)

end Arena

end DocGraph
