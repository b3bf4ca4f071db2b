import DocGraph.Proofs.Linking
import DocGraph.Proofs.Permalinks
import Mathlib.Data.List.Find

namespace DocGraph

/-!
# The linked graph is consistent

Claims and relations between classes are turned into links by different rules, and the collections
are read off afterwards.  What comes of it fits together:

* `Arena.classLinks`, `Arena.link_eq_append` — the links of classes follow on those of claims, and
  so do the warnings about them (`Arena.warnings_link`);
* `Arena.ClaimLinks`, `Arena.claimLinks_linkChildren` — claims lead to no object twice, and to no
  class;
* `Arena.isParent_link_iff`, `Arena.parent?_link_of_class` — of which bases a class is a child, and
  which of them is its parent;
* `Graph.Consistent` — all that can be relied upon when parents, children and collections are read;
* `Arena.toGraph_consistent` — the main statement: the graph of a document is consistent.
-/

namespace Arena

variable {a : Arena} {h : Hierarchy} {b c p x : Nat}

/-! ### Links of classes -/

/-- The bases that a class becomes a child of, in the order of recording. -/
def openBases (a : Arena) (x : Nat) : List Nat :=
  (a.inheritance.1.bases x).filter (! a.inheritance.1.isAncestor x ·)

/-- The links of classes to those bases. -/
def classLinks (a : Arena) : Hierarchy :=
  a.classes.flatMap fun x => (a.openBases x).map (⟨·, x⟩)

/-- **A class becomes a child** of the bases that do not derive from it. -/
theorem mem_openBases_iff :
    b ∈ a.openBases x ↔ (b, x) ∈ a.inheritance.1.edges ∧ ¬ a.inheritance.1.DerivesFrom b x := by
  rw [openBases, List.mem_filter, Inheritance.mem_bases, Bool.not_eq_true', ← Bool.not_eq_true,
    Inheritance.isAncestor_iff]
  refine and_congr_right fun hedge => not_congr ?_
  exact and_iff_right (classes_of_mem_edges hedge).1.symm

/-- No base is listed twice. -/
theorem nodup_openBases (a : Arena) (x : Nat) : (a.openBases x).Nodup :=
  (Inheritance.nodup_bases a.nodup_edges_inheritance x).filter _

/-- The bases that derive from a class, of which it does not become a child. -/
def closedBases (a : Arena) (x : Nat) : List Nat :=
  (a.inheritance.1.bases x).filter (a.inheritance.1.isAncestor x ·)

/-- The warnings about them. -/
def inversions (a : Arena) : List LinkProblem :=
  a.classes.flatMap fun x => (a.closedBases x).map fun b => .parentCycle (a.idOf b) (a.idOf x)

/-- A class is made a child of its open bases, and there is a warning for each of the others, both
in the order of its bases. -/
theorem foldl_addBase (g : Inheritance) (x : Nat) (bases : List Nat) (s : Progress) :
    bases.foldl (Progress.addBase a g x) s
      = ⟨s.links ++ (bases.filter (! g.isAncestor x ·)).map (⟨·, x⟩),
        s.warnings ++ (bases.filter (g.isAncestor x ·)).map fun b =>
          .parentCycle (a.idOf b) (a.idOf x)⟩ := by
  induction bases generalizing s with
  | nil => simp
  | cons b bases ih =>
    rw [List.foldl_cons, ih, Progress.addBase]
    by_cases hb : g.isAncestor x b = true <;> simp [hb]

theorem foldl_classes (xs : List Nat) (s : Progress) :
    xs.foldl (fun s x => (a.inheritance.1.bases x).foldl
        (Progress.addBase a a.inheritance.1 x) s) s
      = ⟨s.links ++ xs.flatMap fun x => (a.openBases x).map (⟨·, x⟩),
        s.warnings ++ xs.flatMap fun x => (a.closedBases x).map fun b =>
          .parentCycle (a.idOf b) (a.idOf x)⟩ := by
  induction xs generalizing s with
  | nil => simp
  | cons x xs ih =>
    rw [List.foldl_cons, ih, foldl_addBase, List.flatMap_cons, List.flatMap_cons,
      List.append_assoc, List.append_assoc]
    rfl

/-- **Each class** is made a child of its open bases, and reported for the others. -/
theorem linkClasses_eq (s : Progress) :
    a.linkClasses a.inheritance.1 s = ⟨s.links ++ a.classLinks, s.warnings ++ a.inversions⟩ :=
  foldl_classes a.classes s

/-- The links of a document are those of claims, followed by those of classes. -/
theorem link_eq_append (a : Arena) : a.link.1 = a.linkChildren.links ++ a.classLinks :=
  congrArg Progress.links (linkClasses_eq _)

/-- The warnings come in the same order, those about what classes list in between. -/
theorem warnings_link (a : Arena) :
    a.link.2.2 = a.linkChildren.warnings ++ a.inheritance.2 ++ a.inversions :=
  congrArg Progress.warnings (linkClasses_eq _)

/-! ### Links of claims -/

/-- What holds of the links while claims are decided on. -/
structure ClaimLinks (a : Arena) (h : Hierarchy) : Prop where
  nodup_child : (h.map (·.child)).Nodup
  other : ∀ {p c}, h.IsParent p c → c ∉ a.classes

/-- **Deciding on a claim** links no class, and no object that has a parent. -/
theorem ClaimLinks.step (ha : a.IsWrapped) {s : Progress} (hs : a.ClaimLinks s.links) {c : Claim}
    (hc : c ∈ a.claims) : a.ClaimLinks (s.step a c).links := by
  unfold Progress.step
  split
  -- Only an accepted claim writes a link; its child had no parent before.
  · rename_i x hd
    obtain ⟨hx, hnone, -, -⟩ := decide_eq_accepted_iff.mp hd
    obtain ⟨k, hclaimant, hk⟩ := ha.claimant_of_mem_claims hc
    constructor
    case nodup_child =>
      rw [List.map_append, List.nodup_append]
      refine ⟨hs.nodup_child, by simp, ?_⟩
      rintro y hy y' hy' rfl
      obtain ⟨⟨q, y⟩, hl, rfl⟩ := List.mem_map.mp hy
      obtain rfl : y = x := by simpa using hy'
      exact Hierarchy.parent?_eq_none_iff.mp hnone q hl
    case other =>
      intro q y hlink
      rcases Hierarchy.isParent_append_singleton.mp hlink with hlink | ⟨rfl, rfl⟩
      · exact hs.other hlink
      · rw [mem_classes_iff, collectionOf?_of_resolve hclaimant hx, Option.some.injEq]
        exact hk
  · exact hs
  · exact hs

/-- **So it is after all claims.** -/
theorem claimLinks_linkChildren (ha : a.IsWrapped) : a.ClaimLinks a.linkChildren.links := by
  refine List.foldlRecOn (motive := fun s : Progress => a.ClaimLinks s.links) a.claims _ ?_
    fun s hs c hc => hs.step ha hc
  exact ⟨List.nodup_nil, fun hlink => absurd hlink Hierarchy.not_isParent_nil⟩

/-! ### All links -/

/-- The links of classes are those to their open bases. -/
theorem isParent_classLinks_iff :
    a.classLinks.IsParent b c ↔ c ∈ a.classes ∧ b ∈ a.openBases c := by
  simp only [Hierarchy.IsParent, classLinks, List.mem_flatMap, List.mem_map, Link.mk.injEq]
  constructor
  · rintro ⟨x, hx, y, hy, rfl, rfl⟩
    exact ⟨hx, hy⟩
  · rintro ⟨hc, hb⟩
    exact ⟨c, hc, b, hb, rfl, rfl⟩

theorem nodup_classLinks (a : Arena) : a.classLinks.Nodup := by
  refine List.nodup_flatMap.mpr ⟨fun x _ => ?_, a.nodup_classes.imp fun hne => ?_⟩
  · exact (a.nodup_openBases x).map fun b b' heq => (Link.mk.inj heq).1
  · intro l hl hl'
    obtain ⟨b, -, rfl⟩ := List.mem_map.mp hl
    obtain ⟨b', -, heq⟩ := List.mem_map.mp hl'
    exact hne (Link.mk.inj heq).2.symm

/-- **No link is made twice.** -/
theorem nodup_link (ha : a.IsWrapped) : a.link.1.Nodup := by
  rw [link_eq_append, List.nodup_append]
  refine ⟨(claimLinks_linkChildren ha).nodup_child.of_map, a.nodup_classLinks, ?_⟩
  rintro l hl l' hl' rfl
  exact (claimLinks_linkChildren ha).other hl (isParent_classLinks_iff.mp hl').1

/-- The parents of a class are the bases of which it becomes a child. -/
theorem isParent_link_iff (ha : a.IsWrapped) (hc : c ∈ a.classes) :
    a.link.1.IsParent b c ↔ b ∈ a.openBases c := by
  rw [link_eq_append, Hierarchy.IsParent, List.mem_append]
  constructor
  · rintro (hlink | hlink)
    · exact absurd hc ((claimLinks_linkChildren ha).other hlink)
    · exact (isParent_classLinks_iff.mp hlink).2
  · exact fun hb => Or.inr (isParent_classLinks_iff.mpr ⟨hc, hb⟩)

/-- The parent of a class is the first of these. -/
theorem parent?_link_of_class (ha : a.IsWrapped) (hc : c ∈ a.classes) :
    a.link.1.parent? c = (a.openBases c).head? := by
  -- claims come first but lead to no class, so the first link to `c` is one of classes
  have hclaim : a.linkChildren.links.parent? c = none :=
    Hierarchy.parent?_eq_none_iff.mpr fun p hlink => (claimLinks_linkChildren ha).other hlink hc
  rw [link_eq_append, Hierarchy.parent?_append, hclaim, Option.none_or, classLinks,
    Hierarchy.parent?_flatMap, if_pos hc]

end Arena

/-! ### Consistency -/

/-- Parents, children, collections and the relations between classes agree. -/
structure Graph.Consistent (g : Graph) : Prop where
  /-- Whatever refers to an object refers to one that there is. -/
  parent_lt : ∀ x p, g.hierarchy.parent? x = some p → p < g.objects.length
  children_lt : ∀ p c, c ∈ g.hierarchy.children p → p < g.objects.length ∧ c < g.objects.length
  members_lt : ∀ k x, x ∈ g.members k → x < g.objects.length
  permalinks_lt : ∀ s x, (s, x) ∈ g.permalinks → x < g.objects.length
  lookup_lt : ∀ id x, g.lookup? id = some x → x < g.objects.length
  /-- The members of a collection are the objects that belong there, and these are in no other. -/
  mem_members : ∀ k x, x ∈ g.members k ↔ g.collectionOf? x = some k
  existsUnique_members : ∀ x, x < g.objects.length → ∃! k, x ∈ g.members k
  /-- Roots are the members without a parent. -/
  mem_roots : ∀ k x, x ∈ g.roots k ↔ x ∈ g.members k ∧ g.hierarchy.parent? x = none
  /-- Both are in document order. -/
  pairwise_members : ∀ k, (g.members k).Pairwise (· < ·)
  pairwise_roots : ∀ k, (g.roots k).Pairwise (· < ·)
  /-- A child is in the collection of its parents, whichever of the two names the other. -/
  sameCollection : ∀ p c, g.hierarchy.parent? c = some p ∨ c ∈ g.hierarchy.children p →
    ∃ k, p ∈ g.members k ∧ c ∈ g.members k
  /-- No child is listed twice. -/
  nodup_children : ∀ p, (g.hierarchy.children p).Nodup
  /-- An object that is no class is a child of its parent alone. -/
  parent_iff : ∀ c, c ∉ g.classes → ∀ p,
    g.hierarchy.parent? c = some p ↔ c ∈ g.hierarchy.children p
  /-- A class is a child of the bases that do not derive from it, and the first is its parent. -/
  mem_children_iff : ∀ c, c ∈ g.classes → ∀ b, c ∈ g.hierarchy.children b
    ↔ b ∈ g.inheritance.bases c ∧ ¬ g.inheritance.DerivesFrom b c
  parent_eq_find : ∀ c, c ∈ g.classes → g.hierarchy.parent? c
    = (g.inheritance.bases c).find? fun b => (g.hierarchy.children b).contains c
  /-- From the roots of a collection, links lead to all of its members. -/
  reachable : ∀ k x, x ∈ g.members k →
    ∃ r ∈ g.roots k, Relation.ReflTransGen (fun p c => c ∈ g.hierarchy.children p) r x

namespace Graph

variable {g : Graph} {x : Nat} {k : Collection}

/-- The members of a collection are the objects that belong there. -/
theorem mem_members_iff : x ∈ g.members k ↔ g.collectionOf? x = some k := by
  rw [members, Arena.mem_places_iff (P := fun o => o.collection = k),
    Arena.collectionOf?_eq_some_iff]
  simp

theorem pairwise_members (g : Graph) (k : Collection) : (g.members k).Pairwise (· < ·) :=
  g.pairwise_places fun o => o.collection = k

/-- Its roots are those without a parent. -/
theorem mem_roots_iff :
    x ∈ g.roots k ↔ x ∈ g.members k ∧ g.hierarchy.parent? x = none := by
  rw [roots, List.mem_filter, Option.isNone_iff_eq_none]

end Graph

namespace Arena

variable {a : Arena} {p c x : Nat}

/-- The first base of which a class becomes a child is the first that has it as a child. -/
theorem head?_openBases (ha : a.IsWrapped) (hc : c ∈ a.classes) :
    (a.openBases c).head?
      = (a.inheritance.1.bases c).find? fun b => (a.link.1.children b).contains c := by
  rw [openBases, List.head?_filter]
  -- among the bases, to be open and to have `c` as a child are the same
  refine List.find?_congr fun b hb => Bool.eq_iff_iff.mpr ?_
  rw [List.contains_iff_mem, Hierarchy.mem_children, isParent_link_iff ha hc, openBases,
    List.mem_filter]
  exact (and_iff_right hb).symm

/-- A link leads from a member of a collection to another. -/
theorem mem_members_of_isParent (ha : a.IsWrapped) (hpc : a.link.1.IsParent p c) :
    ∃ k, p ∈ a.toGraph.1.members k ∧ c ∈ a.toGraph.1.members k := by
  obtain ⟨k, hp, hc⟩ := (sound_link ha).sameCollection hpc
  exact ⟨k, Graph.mem_members_iff.mpr hp, Graph.mem_members_iff.mpr hc⟩

/-- Every object is below a root of its collection. -/
theorem exists_root (ha : a.IsWrapped) {k : Collection} (hx : x ∈ a.toGraph.1.members k) :
    ∃ r ∈ a.toGraph.1.roots k,
      Relation.ReflTransGen (fun p c => c ∈ a.toGraph.1.hierarchy.children p) r x := by
  have hs := sound_link ha
  obtain ⟨r, hroot, hr⟩ := (hs.lineage_chain x).1.exists_root
  refine ⟨r, Graph.mem_roots_iff.mpr ⟨?_, hroot⟩,
    Relation.ReflTransGen.mono (fun p c hlink => Hierarchy.mem_children.mpr hlink) r x hr⟩
  rw [Graph.mem_members_iff] at hx ⊢
  exact (hs.collectionOf?_eq_of_reflTransGen hr).trans hx

/-- **The graph of a document is consistent.** -/
theorem toGraph_consistent (style : PermalinkStyle) (d : Document) :
    (ofDocument style d).1.toGraph.1.Consistent := by
  have ha := ofDocument_isWrapped style d
  generalize (ofDocument style d).1 = a at ha
  have hs := sound_link ha
  constructor
  -- The ranges: whatever the graph points to is one of its objects.
  case parent_lt =>
    exact fun x p hp => hs.lt_of_isParent (Hierarchy.isParent_of_parent? hp)
  case children_lt =>
    intro p c hc
    obtain ⟨k, hpk, hck⟩ := hs.sameCollection (Hierarchy.mem_children.mp hc)
    exact ⟨lt_of_collectionOf? hpk, lt_of_collectionOf? hck⟩
  case members_lt =>
    exact fun k x hx => lt_of_collectionOf? (Graph.mem_members_iff.mp hx)
  case permalinks_lt =>
    exact fun s x hx => (mem_permalinks_iff.mp hx).1
  case lookup_lt =>
    exact fun id x hx => lookup?_lt hx
  -- The collections: each object is listed once, in file order, and the roots among the members.
  case mem_members =>
    exact fun k x => Graph.mem_members_iff
  case existsUnique_members =>
    intro x hx
    obtain ⟨k, hk⟩ := exists_collectionOf? hx
    refine ⟨k, Graph.mem_members_iff.mpr hk, fun k' hk' => ?_⟩
    exact Option.some.inj ((Graph.mem_members_iff.mp hk').symm.trans hk)
  case mem_roots =>
    exact fun k x => Graph.mem_roots_iff
  case pairwise_members =>
    exact fun k => Graph.pairwise_members _ k
  case pairwise_roots =>
    exact fun k => (Graph.pairwise_members _ k).filter _
  -- Parents and children: within one collection, each the converse of the other.
  case sameCollection =>
    rintro p c (hp | hc)
    · exact mem_members_of_isParent ha (Hierarchy.isParent_of_parent? hp)
    · exact mem_members_of_isParent ha (Hierarchy.mem_children.mp hc)
  case nodup_children =>
    exact fun p => Hierarchy.nodup_children (nodup_link ha) p
  case parent_iff =>
    intro c hc p
    rw [Hierarchy.mem_children]
    exact ⟨Hierarchy.isParent_of_parent?, fun hlink => hs.ofOther hlink (mt mem_classes_iff.mpr hc)⟩
  case mem_children_iff =>
    intro c hc b
    rw [Hierarchy.mem_children, Inheritance.mem_bases]
    exact (isParent_link_iff ha hc).trans mem_openBases_iff
  case parent_eq_find =>
    exact fun c hc => (parent?_link_of_class ha hc).trans (head?_openBases ha hc)
  case reachable =>
    exact fun k x hx => exists_root ha hx

end Arena

end DocGraph
