import DocGraph.Proofs.Permalinks

namespace DocGraph

/-!
# Objects that hold what links them

A graph keeps parents, children and permalinks beside its objects.  Here they are written into the
objects themselves, in the order in which linking finds them, and each write is to a single field.

* `LinkedObject` — an object with its parent, its children and its permalink;
* `LinkedObjects.adopt`, `LinkedObjects.name` — the write for a link, and that for a permalink;
  `getElem?_adopt` and `getElem?_name` say what each of them does to the object at a place;
* `getElem?_adoptAll`, `getElem?_nameAll` — hence what becomes of it by all of them;
* `Graph.linkedObjects` — the objects of a graph when everything has been written;
* `Graph.toObject_linkedObjects`, `Arena.getElem?_linkedObjects` — the main statements: all that
  wrapping has put into the objects is there still, and the rest is what the graph says.
-/

/-- An object that holds what links it to others. -/
structure LinkedObject extends Object where
  parent : Option Nat
  children : List Nat
  permalink : String
deriving DecidableEq, Repr

/-- Before it is linked, an object has neither parent nor children, and the permalink that it would
have by itself. -/
def LinkedObject.ofObject (o : Object) : LinkedObject :=
  { o with parent := none, children := [], permalink := o.skeleton }

/-- Objects by place, while they are linked. -/
abbrev LinkedObjects := List LinkedObject

namespace LinkedObjects

/-- The parent of a link takes note of the child, and the child of the parent unless it has one. -/
def adopt (objects : LinkedObjects) (l : Link) : LinkedObjects :=
  (objects.modify l.parent fun o => { o with children := o.children ++ [l.child] }).modify l.child
    fun o => { o with parent := o.parent <|> some l.parent }

/-- An object takes note of the permalink assigned to it. -/
def name (objects : LinkedObjects) (assigned : String × Nat) : LinkedObjects :=
  objects.modify assigned.2 fun o => { o with permalink := assigned.1 }

end LinkedObjects

/-- The objects of a graph, with all that links them written into them. -/
def Graph.linkedObjects (g : Graph) : LinkedObjects :=
  g.permalinks.foldl LinkedObjects.name
    (g.hierarchy.foldl LinkedObjects.adopt (g.objects.map LinkedObject.ofObject))

namespace LinkedObjects

variable {objects : LinkedObjects} {x : Nat}

/-! ### One write -/

/-- **A link** is written into two objects, and into no other field than these. -/
theorem getElem?_adopt (objects : LinkedObjects) (l : Link) (x : Nat) :
    (objects.adopt l)[x]? = objects[x]?.map fun o => { o with
      parent := o.parent <|> if l.child = x then some l.parent else none
      children := o.children ++ if l.parent = x then [l.child] else [] } := by
  rw [adopt, List.getElem?_modify, List.getElem?_modify]
  cases objects[x]? with
  | none => rfl
  | some o =>
    by_cases hparent : l.parent = x <;> by_cases hchild : l.child = x <;> simp [hparent, hchild]

/-- **A permalink** is written into one object. -/
theorem getElem?_name (objects : LinkedObjects) (assigned : String × Nat) (x : Nat) :
    (objects.name assigned)[x]? = objects[x]?.map fun o => { o with
      permalink := if assigned.2 = x then assigned.1 else o.permalink } := by
  rw [name, List.getElem?_modify]
  cases objects[x]? with
  | none => rfl
  | some o => by_cases hx : assigned.2 = x <;> simp [hx]

/-- Neither write touches what wrapping has put into the objects. -/
theorem toObject_adopt (objects : LinkedObjects) (l : Link) :
    (objects.adopt l).map (·.toObject) = objects.map (·.toObject) := by
  refine List.ext_getElem? fun x => ?_
  rw [List.getElem?_map, List.getElem?_map, getElem?_adopt, Option.map_map]
  rfl

theorem toObject_name (objects : LinkedObjects) (assigned : String × Nat) :
    (objects.name assigned).map (·.toObject) = objects.map (·.toObject) := by
  refine List.ext_getElem? fun x => ?_
  rw [List.getElem?_map, List.getElem?_map, getElem?_name, Option.map_map]
  rfl

/-! ### All writes -/

/-- After all links, an object holds the first parent and all the children that they give it. -/
theorem getElem?_adoptAll (objects : LinkedObjects) (h : Hierarchy) (x : Nat) :
    (h.foldl adopt objects)[x]? = objects[x]?.map fun o => { o with
      parent := o.parent <|> h.parent? x
      children := o.children ++ h.children x } := by
  induction h generalizing objects with
  | nil => simp [Hierarchy.parent?, Hierarchy.children]
  | cons l h ih =>
    -- The first link is written first: it decides on the parent, and its child comes first.
    have hparent : Hierarchy.parent? (l :: h) x
        = ((if l.child = x then some l.parent else none) <|> Hierarchy.parent? h x) := by
      by_cases hx : l.child = x <;> simp [Hierarchy.parent?, hx]
    have hchildren : Hierarchy.children (l :: h) x
        = (if l.parent = x then [l.child] else []) ++ Hierarchy.children h x := by
      by_cases hx : l.parent = x <;> simp [Hierarchy.children, hx]
    rw [List.foldl_cons, ih, getElem?_adopt, Option.map_map, hparent, hchildren]
    cases objects[x]? with
    | none => rfl
    | some o => simp [Option.or_assoc]

/-- After all permalinks, an object holds its own.  None is written over, for no object is served
twice. -/
theorem getElem?_nameAll (objects : LinkedObjects) {assigned : Permalinks}
    (hn : (assigned.map (·.2)).Nodup) (x : Nat) :
    (assigned.foldl name objects)[x]? = objects[x]?.map fun o => { o with
      permalink := (assigned.of? x).getD o.permalink } := by
  induction assigned generalizing objects with
  | nil => simp [Permalinks.of?]
  | cons first assigned ih =>
    rw [List.map_cons, List.nodup_cons] at hn
    obtain ⟨hfirst, hn⟩ := hn
    -- Look-ups find the first entry and writing leaves the last; each object has only one.
    have hof : Permalinks.of? (first :: assigned) x
        = if first.2 = x then some first.1 else Permalinks.of? assigned x := by
      by_cases hx : first.2 = x <;> simp [Permalinks.of?, hx]
    rw [List.foldl_cons, ih _ hn, getElem?_name, Option.map_map, hof]
    by_cases hx : first.2 = x
    · -- what is written first stays, since `x` is not served again
      have hlater : Permalinks.of? assigned x = none := by
        rw [Permalinks.of?, Option.map_eq_none_iff, List.find?_eq_none]
        rintro later hlater hsame
        rw [beq_iff_eq] at hsame
        exact hfirst (List.mem_map.mpr ⟨later, hlater, hsame.trans hx.symm⟩)
      cases objects[x]? <;> simp [hx, hlater]
    · cases objects[x]? <;> simp [hx]

end LinkedObjects

/-! ### The objects of a graph -/

/-- **What linking leaves** as it is in the objects is all that wrapping has put there. -/
theorem Graph.toObject_linkedObjects (g : Graph) :
    g.linkedObjects.map (·.toObject) = g.objects := by
  have hwrapped : (g.objects.map LinkedObject.ofObject).map (·.toObject) = g.objects := by
    rw [List.map_map]
    exact List.map_id g.objects
  have hadopted : (g.hierarchy.foldl LinkedObjects.adopt
      (g.objects.map LinkedObject.ofObject)).map (·.toObject) = g.objects :=
    List.foldlRecOn (motive := fun objects => objects.map (·.toObject) = g.objects) _ _ hwrapped
      fun objects hkept l _ => (LinkedObjects.toObject_adopt objects l).trans hkept
  exact List.foldlRecOn (motive := fun objects => objects.map (·.toObject) = g.objects) _ _ hadopted
    fun objects hkept assigned _ => (LinkedObjects.toObject_name objects assigned).trans hkept

/-- **What linking changes** in an object is its parent, its children and its permalink, which are
then those that the graph tells. -/
theorem Arena.getElem?_linkedObjects (a : Arena) (x : Nat) :
    a.toGraph.1.linkedObjects[x]? = a.objects[x]?.map fun o => { o with
      parent := a.toGraph.1.hierarchy.parent? x
      children := a.toGraph.1.hierarchy.children x
      permalink := a.toGraph.1.permalink x } := by
  have hn : (a.toGraph.1.permalinks.map (·.2)).Nodup := by
    rw [places_permalinks]
    exact a.nodup_servingOrder _
  have hobjects : a.toGraph.1.objects = a.objects := rfl
  rw [Graph.linkedObjects, LinkedObjects.getElem?_nameAll _ hn, LinkedObjects.getElem?_adoptAll,
    List.getElem?_map, hobjects]
  cases ho : a.objects[x]? with
  | none => rfl
  | some o =>
    -- every object is served, so none is left with the permalink that it started with
    have hx : x < a.objects.length := (List.getElem?_eq_some_iff.mp ho).1
    have hof : a.toGraph.1.permalinks.of? x = some (a.toGraph.1.permalink x) :=
      (Permalinks.of?_eq_some_iff hn).mpr (mem_permalinks_iff.mpr ⟨hx, rfl⟩)
    simp [LinkedObject.ofObject, hof]

end DocGraph
