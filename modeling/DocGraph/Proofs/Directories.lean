import DocGraph.Proofs.Alphabet
import DocGraph.Proofs.Identity
import DocGraph.Proofs.Nesting
import DocGraph.Proofs.Roster

namespace DocGraph

/-!
# Directories of collections

Each collection has a directory, and no path lies in two of them.  An object nests beneath objects
of its own collection only, so its permalink lies in the directory of the collection, however deep
it nests, and objects of different collections are never in each other's way:

* `Collection.Holds`, `Collection.eq_of_holds` — the paths in the directory of a collection, which
  is told by any of them;
* `Graph.MayHave` — the permalinks that an object may come to have, given that of its parent;
* `Arena.holds_permalink`, `Arena.holds_of_mayHave` — all of these lie in its directory;
* `Arena.permalinks_within_collections` — the main statement.
-/

/-! ### Directories -/

/-- A path in the directory of a collection. -/
def Collection.Holds (k : Collection) (path : String) : Prop :=
  ∃ rest, path = k.name ++ "/" ++ rest

namespace Collection

variable {k l : Collection} {path : String}

/-- Different collections have different directories. -/
theorem name_injective : Function.Injective name := by
  intro k l hname
  cases k <;> cases l <;> first | rfl | exact absurd hname (by decide)

/-- A path in a directory begins with its name and a slash. -/
theorem toList_of_holds (hk : k.Holds path) :
    ∃ rest, path.toList = k.name.toList ++ '/' :: rest := by
  obtain ⟨rest, rfl⟩ := hk
  exact ⟨rest.toList, by simp⟩

/-- **A directory is told by its paths**: it is what stands before the first slash. -/
theorem eq_of_holds (hk : k.Holds path) (hl : l.Holds path) : k = l := by
  have hfirst : ∀ {k : Collection}, k.Holds path →
      path.toList.takeWhile (· ≠ '/') = k.name.toList := by
    intro k hk
    obtain ⟨rest, hpath⟩ := toList_of_holds hk
    have hname : k.name.toList.all (fun c => decide (c ≠ '/')) = true := by cases k <;> decide
    rw [hpath, List.takeWhile_append_of_pos (List.all_eq_true.mp hname),
      List.takeWhile_cons_of_neg (by simp), List.append_nil]
  apply name_injective
  rw [← String.toList_inj, ← hfirst hk, hfirst hl]

/-- Whatever is put behind a path leaves it in its directory. -/
theorem Holds.append (hk : k.Holds path) (text : String) : k.Holds (path ++ text) := by
  obtain ⟨rest, rfl⟩ := hk
  exact ⟨rest ++ text, String.append_assoc⟩

theorem Holds.numbered (hk : k.Holds path) (n : Nat) : k.Holds (numbered path n) :=
  (hk.append "-").append (toString n)

theorem Holds.beneath (hk : k.Holds path) (segment : String) : k.Holds s!"{path}/{segment}" :=
  (hk.append "/").append segment

end Collection

/-! ### Permalinks -/

/-- The permalinks that an object may come to have: the one wanted, or that with a number. -/
def Graph.MayHave (g : Graph) (x : Nat) (permalink : String) : Prop :=
  permalink = g.wanted x ∨ ∃ n, permalink = numbered (g.wanted x) n

namespace Arena

variable {a : Arena} {h : Hierarchy} {k l : Collection} {x y p : Nat} {s : String}

/-- **Nesting leaves no collection.** -/
theorem collectionOf?_nestingParent? (hs : a.Sound h) (hp : a.nestingParent? h x = some p) :
    a.collectionOf? p = a.collectionOf? x :=
  hs.collectionOf?_eq (Hierarchy.isParent_of_parent? (parent?_of_nestingParent? hp))

/-- **The directory of a permalink** is that of the object's own collection. -/
theorem holds_permalink (hs : a.Sound a.link.1) (hx : x < a.objects.length) :
    ∀ k, a.collectionOf? x = some k →
      k.Holds (a.toGraph.1.wanted x) ∧ k.Holds (a.toGraph.1.permalink x) := by
  intro k hk
  have hall := permalink_induction hs (P := fun x s => ∀ k, a.collectionOf? x = some k → k.Holds s)
    ?top ?beneath ?renamed hx
  -- A permalink at the top begins with the directory, and the other two ways keep the beginning.
  case top =>
    intro x o ho k hk
    obtain ⟨o', ho', rfl⟩ := collectionOf?_eq_some_iff.mp hk
    obtain rfl := Option.some.inj (ho.symm.trans ho')
    exact ⟨o.segment, rfl⟩
  case beneath =>
    intro x o p s _ hp hs' k hk
    rw [← collectionOf?_nestingParent? hs hp] at hk
    exact (hs' k hk).beneath o.segment
  case renamed =>
    intro x s n hs' k hk
    exact (hs' k hk).numbered n
  exact ⟨hall.1 k hk, hall.2 k hk⟩

/-- An object has one of the permalinks that it may have. -/
theorem mayHave_permalink (hs : a.Sound a.link.1) (hx : x < a.objects.length) :
    a.toGraph.1.MayHave x (a.toGraph.1.permalink x) := permalink_cases hs hx

/-- **All permalinks that an object may have** lie in the directory of its collection. -/
theorem holds_of_mayHave (hs : a.Sound a.link.1) (hk : a.collectionOf? x = some k)
    (hmay : a.toGraph.1.MayHave x s) : k.Holds s := by
  have hwanted := (holds_permalink hs (lt_of_collectionOf? hk) k hk).1
  rcases hmay with rfl | ⟨n, rfl⟩
  · exact hwanted
  · exact hwanted.numbered n

/-- A renaming is reported of two objects, the latter of which has the permalink that the former
should have. -/
theorem exists_of_duplicatePermalink_mem (hs : a.Sound a.link.1)
    {id holder wanted assigned : String}
    (hw : .duplicatePermalink id holder wanted assigned ∈ a.toGraph.2) :
    ∃ x y, x < a.objects.length ∧ y < a.objects.length ∧ a.idOf x = id ∧ a.idOf y = holder
      ∧ a.toGraph.1.permalink y = a.toGraph.1.wanted x := by
  have hmem : .duplicatePermalink id holder wanted assigned
      ∈ a.toGraph.2.filter (·.isRenaming) := List.mem_filter.mpr ⟨hw, rfl⟩
  rw [filter_isRenaming_toGraph hs] at hmem
  obtain ⟨x, hx, hrenaming⟩ := List.mem_filterMap.mp hmem
  obtain ⟨y, hy, heq⟩ := Option.map_eq_some_iff.mp hrenaming
  have hfound := List.find?_some hy
  rw [Bool.and_eq_true, beq_iff_eq] at hfound
  injection heq with hid hholder
  exact ⟨x, y, mem_servingOrder.mp hx, List.mem_range.mp (List.mem_of_find?_eq_some hy), hid,
    hholder, hfound.2⟩

/-- **Permalinks keep to the directories of collections**, in the graph of any document.  The
permalink of an object lies in the directory of its collection.  No permalink comes into question
for objects of different collections, and where one object has the permalink that another should
have, both are of one collection. -/
theorem permalinks_within_collections (style : PermalinkStyle) (d : Document) :
    let a := (ofDocument style d).1
    let g := a.toGraph.1
    (∀ x o, g.objects[x]? = some o →
        o.collection.Holds (g.permalink x) ∧ g.MayHave x (g.permalink x))
      ∧ (∀ x y k l s, g.collectionOf? x = some k → g.collectionOf? y = some l →
          g.MayHave x s → g.MayHave y s → k = l)
      ∧ ∀ id holder wanted assigned,
          .duplicatePermalink id holder wanted assigned ∈ a.toGraph.2 →
          ∃ x y k, g.lookup? id = some x ∧ g.lookup? holder = some y
            ∧ g.collectionOf? x = some k ∧ g.collectionOf? y = some k := by
  intro a g
  have hs : a.Sound a.link.1 := sound_link (ofDocument_isWrapped style d)
  have hids := nodup_ids_ofDocument style d
  refine ⟨?_, ?_, ?_⟩
  · intro x o ho
    have hk : a.collectionOf? x = some o.collection := collectionOf?_eq_some_iff.mpr ⟨o, ho, rfl⟩
    have hx := lt_of_collectionOf? hk
    exact ⟨(holds_permalink hs hx _ hk).2, mayHave_permalink hs hx⟩
  · intro x y k l s hk hl hx hy
    exact Collection.eq_of_holds (holds_of_mayHave hs hk hx) (holds_of_mayHave hs hl hy)
  · intro id holder wanted assigned hw
    obtain ⟨x, y, hx, hy, rfl, rfl, hpermalink⟩ := exists_of_duplicatePermalink_mem hs hw
    obtain ⟨k, hk⟩ := exists_collectionOf? hx
    obtain ⟨l, hl⟩ := exists_collectionOf? hy
    -- the permalink wanted by one is the one held by the other, so both begin alike
    have hwanted := (holds_permalink hs hx k hk).1
    have hheld := (holds_permalink hs hy l hl).2
    rw [hpermalink] at hheld
    obtain rfl := Collection.eq_of_holds hwanted hheld
    exact ⟨x, y, k, lookup?_idOf hids hx, lookup?_idOf hids hy, hk, hl⟩

end Arena

end DocGraph
