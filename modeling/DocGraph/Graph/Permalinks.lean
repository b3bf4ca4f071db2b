import DocGraph.Graph.Hierarchy

namespace DocGraph

/-!
# Permalinks

Every object has a permalink of its own.  Objects are served by depth, and in document order within
a depth, so a parent has its permalink before its children.

* `Permalinks` — the permalinks assigned, in order, each with its object;
* `Depths`, `Arena.climb`, `Arena.fathom` — a walk up from an object makes its depth known, and
  those of the objects that it passes;
* `Arena.depths`, `Arena.depth` — how many permalinks the own one of an object lies beneath;
* `Arena.candidate` — the permalink that an object would have if it is free;
* `firstFree` — the candidate with the least number behind it that makes it free;
* `Arena.assignPermalinks` — the permalinks of all objects, and the warnings about those that did
  not get their candidate.
-/

/-- Permalinks and the objects that they belong to, in the order of assignment. -/
abbrev Permalinks := List (String × Nat)

namespace Permalinks

/-- The object that a permalink belongs to. -/
def owner? (taken : Permalinks) (permalink : String) : Option Nat := taken.lookup permalink

/-- The permalink of an object. -/
def of? (taken : Permalinks) (x : Nat) : Option String :=
  (taken.find? (·.2 == x)).map (·.1)

end Permalinks

/-- A permalink with a number behind it. -/
def numbered (permalink : String) (n : Nat) : String := s!"{permalink}-{n}"

/-- The candidate with the least number from one on that makes it free.  One of the first numbers
does, since there are more of them than permalinks taken. -/
def firstFree (candidate : String) (taken : Permalinks) : String :=
  let numbers := List.range' 1 (taken.length + 1)
  numbered candidate
    ((numbers.find? fun n => (taken.owner? (numbered candidate n)).isNone).getD 0)

/-- The depths of objects by place, as far as they are known. -/
abbrev Depths := List (Option Nat)

namespace Depths

/-- The depth of an object, if it is known. -/
def of? (known : Depths) (x : Nat) : Option Nat := known[x]?.join

/-- Record the depths of objects, the first of which is `base` deep and each of the others one
deeper than that before it. -/
def record (known : Depths) (base : Nat) (passed : List Nat) : Depths :=
  (passed.zipIdx base).foldl (fun known (x, depth) => known.set x (some depth)) known

end Depths

namespace Arena

/-- The parent beneath whose permalink that of an object lies. -/
def nestingParent? (a : Arena) (h : Hierarchy) (x : Nat) : Option Nat :=
  if ((a.objects[x]?).map (·.kind.nests)).getD false then h.parent? x else none

/-- Walk up from an object until no permalink is left to lie beneath or the depth is known.  The
objects `passed` have no known depth; the one passed last stands first, and with them comes what its
depth is. -/
def climb (a : Arena) (h : Hierarchy) (known : Depths) :
    Nat → Option Nat → List Nat → List Nat × Nat
  | 0, _, passed => (passed, 0)
  | _ + 1, none, passed => (passed, 0)
  | steps + 1, some x, passed =>
    match known.of? x with
    | some depth => (passed, depth + 1)
    | none => climb a h known steps (a.nestingParent? h x) (x :: passed)

/-- Make the depth of an object known, and with it those of the objects passed on its walk.  Each
step follows another link, so there are no more steps than links. -/
def fathom (a : Arena) (h : Hierarchy) (known : Depths) (x : Nat) : Depths :=
  let (passed, base) := a.climb h known (h.length + 1) (some x) []
  known.record base passed

/-- How many permalinks the own one of each object lies beneath, by place. -/
def depths (a : Arena) (h : Hierarchy) : List Nat :=
  let unknown : Depths := List.replicate a.objects.length none
  ((List.range a.objects.length).foldl (a.fathom h) unknown).map (·.getD 0)

/-- How many permalinks an object's own lies beneath. -/
def depth (a : Arena) (h : Hierarchy) (x : Nat) : Nat := (a.depths h).getD x 0

/-- The order in which objects are served. -/
def servingOrder (a : Arena) (h : Hierarchy) : List Nat :=
  let depths := a.depths h
  (List.range a.objects.length).mergeSort fun x y => depths.getD x 0 ≤ depths.getD y 0

/-- The permalink of an object if it is free, after those assigned before it. -/
def candidate (a : Arena) (h : Hierarchy) (taken : Permalinks) (x : Nat) : String :=
  match a.objects[x]? with
  | none => ""
  | some o =>
    match (a.nestingParent? h x).bind taken.of? with
    | some above => s!"{above}/{o.segment}"
    | none => o.skeleton

/-- Assign one permalink. -/
def assignOne (a : Arena) (h : Hierarchy) (p : Permalinks × List LinkProblem) (x : Nat) :
    Permalinks × List LinkProblem :=
  let (taken, warnings) := p
  let wanted := a.candidate h taken x
  match taken.owner? wanted with
  | none => (taken ++ [(wanted, x)], warnings)
  | some holder =>
    let assigned := firstFree wanted taken
    (taken ++ [(assigned, x)],
      warnings ++ [.duplicatePermalink (a.idOf x) (a.idOf holder) wanted assigned])

/-- Assign the permalinks of all objects. -/
def assignPermalinks (a : Arena) (h : Hierarchy) : Permalinks × List LinkProblem :=
  (a.servingOrder h).foldl (a.assignOne h) ([], [])

end Arena

end DocGraph
