namespace DocGraph

/-!
# Inheritance

Classes do not form a tree: a class may have many bases, and one class may be reached from another
in many ways, or even from itself.

* `Inheritance`, `Inheritance.add` — which class derives from which, each relation once and in the
  order of recording;
* `Inheritance.bases`, `Inheritance.derived` — direct relations;
* `Inheritance.ancestors` — everything that a class derives from, nearest first and each once;
* `Inheritance.isAncestor` — membership there.
-/

/-- Which objects derive from which; objects are known by their places. -/
structure Inheritance where
  /-- Pairs of a base and an object derived from it, in the order of recording. -/
  edges : List (Nat × Nat) := []
deriving DecidableEq, Repr

namespace Inheritance

/-- Record a relation, unless it is known.  Nothing derives from itself. -/
def add (g : Inheritance) (base derived : Nat) : Inheritance :=
  if base = derived ∨ (base, derived) ∈ g.edges then g else ⟨g.edges ++ [(base, derived)]⟩

/-- The direct bases of an object, in the order of recording. -/
def bases (g : Inheritance) (x : Nat) : List Nat :=
  (g.edges.filter (·.2 == x)).map (·.1)

/-- The objects that derive directly from an object, in the order of recording. -/
def derived (g : Inheritance) (x : Nat) : List Nat :=
  (g.edges.filter (·.1 == x)).map (·.2)

/-- Explore breadth first.  `seen` holds what has been reached, in order, and `queue` that of it
whose bases are still to be visited; each step visits one. -/
def explore (g : Inheritance) : Nat → List Nat → List Nat → List Nat
  | 0, _, seen => seen
  | _ + 1, [], seen => seen
  | steps + 1, x :: queue, seen =>
    let fresh := ((g.bases x).filter (! seen.contains ·)).eraseDups
    explore g steps (queue ++ fresh) (seen ++ fresh)

/-- Everything that an object derives from.  Each step visits another object, and all but the first
are bases in some relation, so there are enough steps. -/
def ancestors (g : Inheritance) (x : Nat) : List Nat :=
  (g.explore (g.edges.length + 1) [x] [x]).tail

/-- Whether `x` derives from `candidate`. -/
def isAncestor (g : Inheritance) (candidate x : Nat) : Bool := (g.ancestors x).contains candidate

end Inheritance

end DocGraph
