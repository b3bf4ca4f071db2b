import DocGraph.Proofs.FileOrder
import DocGraph.Proofs.Recording

namespace DocGraph

/-!
# Derivation, whichever class tells of it

A class may list its bases, its derived classes, or both, and files come in any order.  What follows
from it for the graph can be read off the compounds, without regard to either:

* `Document.ids`, `Document.IsClass`, `Document.Derives` — the ids of compounds, the classes among
  them, and which derives from which as one of the two says;
* `Document.Admits` — whether a class may become a child of another;
* `Graph.relations`, `Graph.ancestorsOf`, `Graph.childrenOf` — what a graph says, by ids;
* `Arena.parentCycle_mem_toGraph_iff`, `Arena.mem_ancestorsOf_iff`, `Arena.mem_childrenOf_iff` — and
  how it comes to say it;
* `Document.ToldBy` — what a graph says of classes is what the compounds say;
* `Document.toldBy_perm` — the main statement: the graph says so in every order of the compounds.
-/

/-! ### What compounds say -/

/-- The ids of the base classes that a compound lists, as far as they are documented. -/
def CompoundDef.baseIds (c : CompoundDef) : List String := c.bases.filterMap (·.refid)

/-- The ids of the derived classes that a compound lists, as far as they are documented. -/
def CompoundDef.derivedIds (c : CompoundDef) : List String := c.derived.filterMap (·.refid)

namespace Document

/-- The ids of all compounds. -/
def ids (d : Document) : List String := d.compounds.filterMap fun n => n.asCompound?.map (·.id)

/-- A compound of the document is a class. -/
def IsClass (d : Document) (c : CompoundDef) : Prop :=
  ∃ n ∈ d.compounds, n.asCompound? = some c
    ∧ ∃ kind, ObjectKind.ofCompound? c = some kind ∧ kind.isClass = true

/-- A class derives directly from another one, as one of the two says. -/
def Derives (d : Document) (derived base : String) : Prop :=
  base ≠ derived ∧ ∃ c b, d.IsClass c ∧ d.IsClass b ∧ c.id = derived ∧ b.id = base
    ∧ (base ∈ c.baseIds ∨ derived ∈ b.derivedIds)

/-- An id is that of another class, one that does not derive from `c`. -/
def Admits (d : Document) (c : CompoundDef) (base : String) : Prop :=
  base ≠ c.id ∧ (∃ b, d.IsClass b ∧ b.id = base) ∧ ¬ Relation.TransGen d.Derives base c.id

section

variable {d d' : Document} (hperm : d.compounds.Perm d'.compounds)
include hperm

/-- The order of compounds is of no account to what they say. -/
theorem isClass_of_perm : d.IsClass = d'.IsClass := by
  funext c
  unfold IsClass
  simp only [hperm.mem_iff]

/-- What derives from what does not depend on the order of compounds. -/
theorem derives_of_perm : d.Derives = d'.Derives := by
  funext derived base
  unfold Derives
  rw [isClass_of_perm hperm]

theorem admits_of_perm : d.Admits = d'.Admits := by
  funext c base
  unfold Admits
  rw [isClass_of_perm hperm, derives_of_perm hperm]

theorem nodup_ids_of_perm (hids : d.ids.Nodup) : d'.ids.Nodup :=
  ((hperm.filterMap _).nodup_iff).mp hids

end

/-- Compounds that have objects are some of all. -/
theorem shownIds_sublist (p : PermalinkStyle) (d : Document) :
    (shownIds p d.compounds).Sublist d.ids := by
  unfold shownIds ids
  induction d.compounds with
  | nil => exact List.Sublist.refl _
  | cons n nodes ih =>
    rw [List.filterMap_cons, List.filterMap_cons]
    unfold entryOf?
    -- A compound without an object is left out of the first list only.
    cases n.asCompound? with
    | none => exact ih
    | some c =>
      cases hkind : ObjectKind.ofCompound? c with
      | none =>
        simp only [Option.bind_some, hkind, Option.map_none, Option.map_some]
        exact ih.cons _
      | some kind =>
        simp only [Option.bind_some, hkind, Option.map_some, List.map_cons]
        exact ih.cons_cons _

end Document

/-! ### Classes and their objects -/

section

variable {p : PermalinkStyle} {d : Document} (hids : d.ids.Nodup)
include hids

/-- **The objects of classes** are those of the compounds that are classes. -/
theorem mem_roster_class_iff {o : Object} :
    o ∈ (Arena.ofDocument p d).1.roster ∧ o.collection = .classes
      ↔ ∃ c, d.IsClass c ∧ ∃ kind, ObjectKind.ofCompound? c = some kind
        ∧ Object.ofCompound p c kind 0 = o := by
  have hshown : (shownIds p d.compounds).Nodup := hids.sublist (d.shownIds_sublist p)
  -- With no identifier shown twice, the objects are exactly the entries of the compounds.
  have hentries := Arena.entries_ofDocument (Arena.freeOfDuplicates_iff.mpr hshown)
  rw [Arena.mem_roster_iff_entry, hentries]
  constructor
  · rintro ⟨⟨e, he, rfl⟩, hclass⟩
    obtain ⟨n, hn, hentry⟩ := List.mem_filterMap.mp he
    obtain ⟨c, hc, hkind⟩ := Option.bind_eq_some_iff.mp hentry
    obtain ⟨kind, hk, rfl⟩ := Option.map_eq_some_iff.mp hkind
    have hisClass : kind.isClass = true := (ObjectKind.isClass_iff kind).mpr hclass
    exact ⟨c, ⟨n, hn, hc, kind, hk, hisClass⟩, kind, hk, rfl⟩
  · rintro ⟨c, ⟨n, hn, hc, kind, hk, hisClass⟩, kind', hk', rfl⟩
    obtain rfl : kind = kind' := Option.some.inj (hk.symm.trans hk')
    have hentry : entryOf? p n = some (Object.ofCompound p c kind 0, some n) := by
      unfold entryOf?
      rw [hc, Option.bind_some, hk, Option.map_some]
    exact ⟨⟨_, List.mem_filterMap.mpr ⟨n, hn, hentry⟩, rfl⟩,
      (ObjectKind.isClass_iff kind).mp hisClass⟩

/-- **Classes derive from each other** as their compounds say. -/
theorem derives_roster_eq : (Arena.ofDocument p d).1.roster.Derives = d.Derives := by
  funext derived base
  refine propext (and_congr_right fun _ => ?_)
  -- Both tell of classes that list each other; the roster holds exactly the shown classes.
  constructor
  · rintro ⟨o, ho, o', ho', rfl, rfl, hclass, hclass', hlisted⟩
    obtain ⟨c, hc, kind, -, rfl⟩ := (mem_roster_class_iff hids).mp ⟨ho, hclass⟩
    obtain ⟨b, hb, kind', -, rfl⟩ := (mem_roster_class_iff hids).mp ⟨ho', hclass'⟩
    exact ⟨c, b, hc, hb, rfl, rfl, hlisted⟩
  · rintro ⟨c, b, hc, hb, rfl, rfl, hlisted⟩
    obtain ⟨-, -, -, kind, hk, -⟩ := id hc
    obtain ⟨-, -, -, kind', hk', -⟩ := id hb
    obtain ⟨ho, hclass⟩ := (mem_roster_class_iff (p := p) hids).mpr ⟨c, hc, kind, hk, rfl⟩
    obtain ⟨ho', hclass'⟩ := (mem_roster_class_iff (p := p) hids).mpr ⟨b, hb, kind', hk', rfl⟩
    exact ⟨_, ho, _, ho', rfl, rfl, hclass, hclass', hlisted⟩

/-- A class has an object, which knows the bases that the class lists. -/
theorem exists_object_of_isClass {c : CompoundDef} (hc : d.IsClass c) :
    ∃ (x : Nat) (o : Object), (Arena.ofDocument p d).1.objects[x]? = some o ∧ o.id = c.id
      ∧ o.collection = .classes ∧ o.baseIds = c.baseIds := by
  obtain ⟨-, -, -, kind, hk, -⟩ := id hc
  obtain ⟨ho, hclass⟩ := (mem_roster_class_iff (p := p) hids).mpr ⟨c, hc, kind, hk, rfl⟩
  obtain ⟨x, o, hx, hunplaced⟩ := Arena.mem_roster_iff.mp ho
  have hid : o.unplaced.id = c.id := congrArg Object.id hunplaced
  have hbases : o.unplaced.baseIds = c.baseIds := congrArg Object.baseIds hunplaced
  have hcollection : o.unplaced.collection = .classes := hunplaced ▸ hclass
  exact ⟨x, o, hx, hid, hcollection, hbases⟩

end

/-! ### What a graph says of classes -/

namespace Graph

/-- The relations between classes, each as the ids of the base and of the derived class. -/
def relations (g : Graph) : List (String × String) :=
  g.inheritance.edges.map fun (base, derived) => (g.idOf base, g.idOf derived)

/-- The ids of all that an object derives from. -/
def ancestorsOf (g : Graph) (id : String) : List String :=
  (g.lookup? id).elim [] fun x => (g.inheritance.ancestors x).map g.idOf

/-- The ids of the children of an object. -/
def childrenOf (g : Graph) (id : String) : List String :=
  (g.lookup? id).elim [] fun x => (g.hierarchy.children x).map g.idOf

end Graph

/-- A graph and the warnings made of it say of classes what the compounds of a document say. -/
structure Document.ToldBy (d : Document) (g : Graph) (warnings : List LinkProblem) : Prop where
  /-- There is a relation wherever one of two classes lists the other, and each is there once. -/
  mem_relations : ∀ base derived, (base, derived) ∈ g.relations ↔ d.Derives derived base
  nodup_relations : g.relations.Nodup
  /-- Ancestors are all that a class derives from, itself apart. -/
  mem_ancestors : ∀ x y, y ∈ g.ancestorsOf x ↔ y ≠ x ∧ Relation.TransGen d.Derives x y
  /-- A class is a child of its bases, except of those that derive from it. -/
  mem_children : ∀ b, d.IsClass b → ∀ x, x ∈ g.childrenOf b.id
    ↔ d.Derives x b.id ∧ ¬ Relation.TransGen d.Derives b.id x
  /-- These are reported. -/
  refused : ∀ c, d.IsClass c → ∀ base, .parentCycle base c.id ∈ warnings
    ↔ d.Derives c.id base ∧ Relation.TransGen d.Derives base c.id
  /-- The first base that a class lists and that is open to it is its parent. -/
  parent : ∀ c, d.IsClass c → ∀ before base after, c.baseIds = before ++ base :: after →
    (∀ b ∈ before, ¬ d.Admits c b) → d.Admits c base → g.parentOf? c.id = some base

namespace Arena

variable {a : Arena} {x y : Nat}

/-! ### Refusals -/

/-- A claim that would close a cycle leads to the object that is named in the report. -/
theorem exists_of_decide_eq_parentCycle {h : Hierarchy} {c : Claim} {p id : String}
    (hd : a.decide h c = .refused (.parentCycle p id)) :
    ∃ y, a.resolve c = .ok y ∧ a.idOf y = id := by
  unfold decide at hd
  cases hr : a.resolve c with
  | error w =>
    rw [hr] at hd
    have hw : w = .parentCycle p id := Decision.refused.inj hd
    -- What keeps a claim from an object is never a cycle.
    rcases eq_of_resolve_eq_error hr with ⟨source, heq⟩ | ⟨expected, found, heq⟩
    all_goals
      rw [heq] at hw
      cases hw
  | ok y =>
    rw [hr] at hd
    refine ⟨y, rfl, ?_⟩
    dsimp only at hd
    split at hd
    · split at hd <;> cases hd
    · split at hd
      · exact (LinkProblem.parentCycle.inj (Decision.refused.inj hd)).2
      · cases hd

/-- **Claims on children** close no cycle of classes. -/
theorem exists_of_parentCycle_mem_linkChildren (ha : a.IsWrapped) {p id : String}
    (hw : .parentCycle p id ∈ a.linkChildren.warnings) :
    ∃ y k, a.collectionOf? y = some k ∧ k ≠ .classes ∧ a.idOf y = id := by
  revert hw
  -- Only a refused claim adds to the warnings, and its claimant is no class.
  refine List.foldlRecOn
    (motive := fun s : Progress => .parentCycle p id ∈ s.warnings → _) a.claims _ ?_ ?_
  · intro hw
    cases hw
  · intro s hs c hc hw
    unfold Progress.step at hw
    split at hw
    · exact hs hw
    · exact hs hw
    · rename_i w hd
      rcases List.mem_append.mp hw with hw | hw
      · exact hs hw
      · obtain rfl := List.mem_singleton.mp hw
        obtain ⟨y, hy, hid⟩ := exists_of_decide_eq_parentCycle hd
        obtain ⟨k, hclaimant, hk⟩ := ha.claimant_of_mem_claims hc
        exact ⟨y, k, collectionOf?_of_resolve hclaimant hy, hk, hid⟩

/-- **The cycles reported** are those of classes and bases that derive from them. -/
theorem parentCycle_mem_toGraph_iff (hn : (a.objects.map (·.id)).Nodup) (ha : a.IsWrapped)
    (hx : a.collectionOf? x = some .classes) {base : String} :
    .parentCycle base (a.idOf x) ∈ a.toGraph.2
      ↔ ∃ b, (b, x) ∈ a.inheritance.1.edges ∧ a.inheritance.1.DerivesFrom b x
          ∧ a.idOf b = base := by
  have hxl := lt_of_collectionOf? hx
  -- The other parts of linking give no such report: claims of children are not about classes,
  -- the lists of bases only tell of what is not found, and renaming tells of permalinks.
  have hchildren : .parentCycle base (a.idOf x) ∉ a.linkChildren.warnings := by
    intro hw
    obtain ⟨y, k, hy, hk, hid⟩ := exists_of_parentCycle_mem_linkChildren ha hw
    obtain rfl := idOf_injective hn (lt_of_collectionOf? hy) hxl hid
    exact hk (Option.some.inj (hy.symm.trans hx))
  have hlisted : .parentCycle base (a.idOf x) ∉ a.inheritance.2 := by
    rw [warnings_inheritance]
    intro hw
    have hquiet := quiet_append.mpr ⟨a.quiet_filterMap_resolve (a.classClaims (·.baseIds)),
      a.quiet_filterMap_resolve (a.classClaims (·.derivedIds))⟩ _ hw
    simp [LinkProblem.isConflict] at hquiet
  have hrenamed : .parentCycle base (a.idOf x)
      ∉ (a.servingOrder a.link.1).filterMap a.toGraph.1.renaming? := by
    intro hw
    obtain ⟨y, -, hy⟩ := List.mem_filterMap.mp hw
    obtain ⟨z, -, hz⟩ := Option.map_eq_some_iff.mp hy
    cases hz
  rw [warnings_toGraph ha]
  simp only [List.mem_append, hchildren, hlisted, hrenamed, false_or, or_false]
  constructor
  · intro hw
    obtain ⟨z, hz, hw⟩ := List.mem_flatMap.mp hw
    obtain ⟨b, hb, hw⟩ := List.mem_map.mp hw
    obtain ⟨hid, hxid⟩ := LinkProblem.parentCycle.inj hw
    obtain rfl := idOf_injective hn (lt_of_collectionOf? (mem_classes_iff.mp hz)) hxl hxid
    obtain ⟨hedge, hancestor⟩ := List.mem_filter.mp hb
    exact ⟨b, Inheritance.mem_bases.mp hedge, (Inheritance.isAncestor_iff.mp hancestor).2, hid⟩
  · rintro ⟨b, hedge, hderives, rfl⟩
    have hne : x ≠ b := (classes_of_mem_edges hedge).1.symm
    have hb : b ∈ a.closedBases x := List.mem_filter.mpr
      ⟨Inheritance.mem_bases.mpr hedge, Inheritance.isAncestor_iff.mpr ⟨hne, hderives⟩⟩
    exact List.mem_flatMap.mpr ⟨x, mem_classes_iff.mpr hx, List.mem_map.mpr ⟨b, hb, rfl⟩⟩

/-! ### Graphs by ids -/

section

variable (hn : (a.objects.map (·.id)).Nodup)
include hn

/-- **A relation is told** if some compound tells it. -/
theorem mem_relations_iff {base derived : String} :
    (base, derived) ∈ a.toGraph.1.relations ↔ a.roster.Derives derived base := by
  rw [derives_iff hn]
  constructor
  · intro hmem
    obtain ⟨⟨y, x⟩, hedge, heq⟩ := List.mem_map.mp hmem
    obtain ⟨hy, hx⟩ := Prod.mk.inj heq
    exact ⟨x, y, hedge, hx, hy⟩
  · rintro ⟨x, y, hedge, rfl, rfl⟩
    exact List.mem_map.mpr ⟨(y, x), hedge, rfl⟩

theorem nodup_relations : a.toGraph.1.relations.Nodup := by
  refine List.Nodup.map_on ?_ a.nodup_edges_inheritance
  rintro ⟨b, x⟩ hbx ⟨b', x'⟩ hbx' heq
  obtain ⟨hb, hx⟩ := Prod.mk.inj heq
  obtain ⟨-, hbc, hxc⟩ := classes_of_mem_edges hbx
  obtain ⟨-, hbc', hxc'⟩ := classes_of_mem_edges hbx'
  have hbase : b = b' :=
    idOf_injective hn (lt_of_collectionOf? hbc) (lt_of_collectionOf? hbc') hb
  have hderived : x = x' :=
    idOf_injective hn (lt_of_collectionOf? hxc) (lt_of_collectionOf? hxc') hx
  rw [hbase, hderived]

/-- Classes that derive from others are classes of the document. -/
theorem exists_places_of_transGen {d b : String} (hdb : Relation.TransGen a.roster.Derives d b) :
    ∃ x y, x < a.objects.length ∧ y < a.objects.length ∧ a.idOf x = d ∧ a.idOf y = b := by
  obtain ⟨_, hfirst, -⟩ := Relation.TransGen.head'_iff.mp hdb
  obtain ⟨_, -, hlast⟩ := Relation.TransGen.tail'_iff.mp hdb
  obtain ⟨x, _, hedge, hx, -⟩ := (derives_iff hn).mp hfirst
  obtain ⟨_, y, hedge', -, hy⟩ := (derives_iff hn).mp hlast
  exact ⟨x, y, lt_of_collectionOf? (classes_of_mem_edges hedge).2.2,
    lt_of_collectionOf? (classes_of_mem_edges hedge').2.1, hx, hy⟩

/-- **The ancestors of a class** are what it derives from, by way of others maybe, itself apart. -/
theorem mem_ancestorsOf_iff {x y : String} :
    y ∈ a.toGraph.1.ancestorsOf x ↔ y ≠ x ∧ Relation.TransGen a.roster.Derives x y := by
  constructor
  · intro hy
    cases hx : a.toGraph.1.lookup? x with
    | none => simp [Graph.ancestorsOf, hx] at hy
    | some i =>
      have hi : a.lookup? x = some i := hx
      obtain rfl := idOf_of_lookup? hn hi
      simp only [Graph.ancestorsOf, hx, Option.elim_some, List.mem_map] at hy
      obtain ⟨j, hj, rfl⟩ := hy
      obtain ⟨hne, hderives⟩ := Inheritance.mem_ancestors_iff.mp hj
      -- the last edge of the way shows that `j` is a class, and so an object
      obtain ⟨_, -, hedge⟩ := Relation.TransGen.tail'_iff.mp hderives
      have hjl := lt_of_collectionOf? (classes_of_mem_edges hedge).2.1
      have hil := lookup?_lt hi
      refine ⟨fun hid => hne (idOf_injective hn hjl hil hid), ?_⟩
      exact (transGen_derives_iff hn hil hjl).mpr hderives
  · rintro ⟨hne, hxy⟩
    obtain ⟨i, j, hi, hj, rfl, rfl⟩ := exists_places_of_transGen hn hxy
    have hlookup : a.toGraph.1.lookup? (a.idOf i) = some i := lookup?_idOf hn hi
    simp only [Graph.ancestorsOf, hlookup, Option.elim_some, List.mem_map]
    refine ⟨j, Inheritance.mem_ancestors_iff.mpr ⟨?_, (transGen_derives_iff hn hi hj).mp hxy⟩, rfl⟩
    rintro rfl
    exact hne rfl

/-- **The children of a class** are those that derive from it, unless it derives from them. -/
theorem mem_childrenOf_iff (ha : a.IsWrapped) (hy : a.collectionOf? y = some .classes)
    {x : String} : x ∈ a.toGraph.1.childrenOf (a.idOf y)
      ↔ a.roster.Derives x (a.idOf y) ∧ ¬ Relation.TransGen a.roster.Derives (a.idOf y) x := by
  have hyl := lt_of_collectionOf? hy
  have hlookup : a.toGraph.1.lookup? (a.idOf y) = some y := lookup?_idOf hn hyl
  -- Beneath a class stand the classes to which it is an open base.
  have hchildren : x ∈ a.toGraph.1.childrenOf (a.idOf y)
      ↔ ∃ i, i ∈ a.classes ∧ y ∈ a.openBases i ∧ a.idOf i = x := by
    simp only [Graph.childrenOf, hlookup, Option.elim_some, List.mem_map]
    refine exists_congr fun i => ?_
    rw [Hierarchy.mem_children, ← and_assoc]
    refine and_congr_left fun _ => ?_
    constructor
    · intro hlink
      have hi : i ∈ a.classes :=
        mem_classes_iff.mpr (((sound_link ha).collectionOf?_eq hlink).symm.trans hy)
      exact ⟨hi, (isParent_link_iff ha hi).mp hlink⟩
    · rintro ⟨hi, hopen⟩
      exact (isParent_link_iff ha hi).mpr hopen
  rw [hchildren]
  constructor
  · rintro ⟨i, hi, hopen, rfl⟩
    obtain ⟨hedge, hfree⟩ := mem_openBases_iff.mp hopen
    have hil := lt_of_collectionOf? (mem_classes_iff.mp hi)
    refine ⟨(derives_iff hn).mpr ⟨i, y, hedge, rfl, rfl⟩, ?_⟩
    rw [transGen_derives_iff hn hyl hil]
    exact hfree
  · rintro ⟨hderives, hfree⟩
    obtain ⟨i, j, hedge, rfl, hj⟩ := (derives_iff hn).mp hderives
    obtain ⟨-, hjc, hic⟩ := classes_of_mem_edges hedge
    obtain rfl := idOf_injective hn (lt_of_collectionOf? hjc) hyl hj
    rw [transGen_derives_iff hn hyl (lt_of_collectionOf? hic)] at hfree
    exact ⟨i, mem_classes_iff.mpr hic, mem_openBases_iff.mpr ⟨hedge, hfree⟩, rfl⟩

end

end Arena

/-! ### Documents with distinct ids -/

namespace Document

variable {style : PermalinkStyle} {d d' : Document} {c : CompoundDef} {x : Nat}

/-- A base that a class lists is one that it claims, unless it is the class itself or no class. -/
theorem ownBase?_eq_some_iff (hids : d.ids.Nodup) {o : Object} {base : String} {y : Nat}
    (ho : (Arena.ofDocument style d).1.objects[x]? = some o) (hid : o.id = c.id)
    (hclass : o.collection = .classes) :
    (Arena.ofDocument style d).1.ownBase? x ⟨x, base⟩ = some y
      ↔ base ≠ c.id ∧ (∃ b, d.IsClass b ∧ b.id = base)
        ∧ (Arena.ofDocument style d).1.lookup? base = some y := by
  have hn := Arena.nodup_ids_ofDocument style d
  have hresolve : (Arena.ofDocument style d).1.resolve ⟨x, base⟩ = .ok y
      ↔ ∃ o', (Arena.ofDocument style d).1.objects[y]? = some o' ∧ o'.id = base
        ∧ o'.collection = o.collection := Arena.resolve_eq_ok_iff hn ho
  unfold Arena.ownBase?
  rw [if_pos rfl, Option.filter_eq_some_iff, toOption_eq_some_iff, hresolve, hclass]
  constructor
  · rintro ⟨⟨o', ho', rfl, hclass'⟩, hne⟩
    have hlookup := (Arena.lookup?_eq_some_iff hn).mpr ⟨o', ho', rfl⟩
    obtain ⟨b, hb, kind, -, hob⟩ :=
      (mem_roster_class_iff hids).mp ⟨Arena.unplaced_mem_roster ho', hclass'⟩
    have hbid : b.id = o'.id := congrArg Object.id hob
    refine ⟨fun hown => ?_, ⟨b, hb, hbid⟩, hlookup⟩
    -- another place has another id
    have hxy := (Arena.lookup?_eq_some_iff hn).mpr ⟨o, ho, hid.trans hown.symm⟩
    obtain rfl := Option.some.inj (hxy.symm.trans hlookup)
    simp at hne
  · rintro ⟨hown, ⟨b, hb, rfl⟩, hlookup⟩
    obtain ⟨z, o', ho', hid', hclass', -⟩ := exists_object_of_isClass (p := style) hids hb
    have hz := (Arena.lookup?_eq_some_iff hn).mpr ⟨o', ho', hid'⟩
    obtain rfl : z = y := Option.some.inj (hz.symm.trans hlookup)
    refine ⟨⟨o', ho', hid', hclass'⟩, ?_⟩
    by_contra heq
    have hzx : z = x := by simpa using heq
    subst hzx
    obtain rfl := Option.some.inj (ho.symm.trans ho')
    exact hown (hid'.symm.trans hid)

/-- A base derives from the class in the graph if it does so in the document. -/
theorem isAncestor_iff_transGen (hids : d.ids.Nodup) {o : Object}
    (ho : (Arena.ofDocument style d).1.objects[x]? = some o) (hid : o.id = c.id) {base : String}
    {y : Nat} (hy : (Arena.ofDocument style d).1.lookup? base = some y) (hne : base ≠ c.id) :
    (Arena.ofDocument style d).1.inheritance.1.isAncestor x y = true
      ↔ Relation.TransGen d.Derives base c.id := by
  have hn := Arena.nodup_ids_ofDocument style d
  have hxl : x < (Arena.ofDocument style d).1.objects.length :=
    (List.getElem?_eq_some_iff.mp ho).1
  have hxid : (Arena.ofDocument style d).1.idOf x = c.id := (Arena.idOf_eq ho).trans hid
  obtain rfl := Arena.idOf_of_lookup? hn hy
  rw [Inheritance.isAncestor_iff, ← derives_roster_eq (p := style) hids, ← hxid,
    Arena.transGen_derives_iff hn (Arena.lookup?_lt hy) hxl]
  refine and_iff_right ?_
  rintro rfl
  exact hne hxid

/-- **The first base listed that is open to a class** is its parent. -/
theorem parentOf?_eq_of_admits (hids : d.ids.Nodup) (hc : d.IsClass c)
    {before after : List String} {base : String} (hlisted : c.baseIds = before ++ base :: after)
    (hbefore : ∀ b ∈ before, ¬ d.Admits c b) (hbase : d.Admits c base) :
    (Arena.ofDocument style d).1.toGraph.1.parentOf? c.id = some base := by
  have hn := Arena.nodup_ids_ofDocument style d
  have ha := Arena.ofDocument_isWrapped style d
  obtain ⟨x, o, ho, hid, hclass, hbases⟩ := exists_object_of_isClass (p := style) hids hc
  have hancestor : ∀ b z, (Arena.ofDocument style d).1.lookup? b = some z → b ≠ c.id →
      ((Arena.ofDocument style d).1.inheritance.1.isAncestor x z = true
        ↔ Relation.TransGen d.Derives b c.id) :=
    fun b z hz hne => isAncestor_iff_transGen hids ho hid hz hne
  obtain ⟨hne, hbaseClass, hfree⟩ := hbase
  obtain ⟨b, hb, hbid⟩ := id hbaseClass
  obtain ⟨y, o', ho', hid', -, -⟩ := exists_object_of_isClass (p := style) hids hb
  have hy : (Arena.ofDocument style d).1.lookup? base = some y :=
    (Arena.lookup?_eq_some_iff hn).mpr ⟨o', ho', hid'.trans hbid⟩
  -- The parent is the first listed base that is open; `base` is, and those before it are not.
  have hparent : (Arena.ofDocument style d).1.link.1.parent? x = some y := by
    refine Arena.parent?_link_of_listed ha ho hclass ?_
    have hown := (ownBase?_eq_some_iff (y := y) hids ho hid hclass).mpr ⟨hne, hbaseClass, hy⟩
    rw [hbases, hlisted]
    refine find?_filterMap_append_cons hown ?_ fun b' hb' z hz => ?_
    · rw [Bool.not_eq_true', ← Bool.not_eq_true, hancestor base y hy hne]
      exact hfree
    · obtain ⟨hne', hclass', hz⟩ := (ownBase?_eq_some_iff hids ho hid hclass).mp hz
      have hderives' : Relation.TransGen d.Derives b' c.id := by
        by_contra hfree'
        exact hbefore b' hb' ⟨hne', hclass', hfree'⟩
      rw [Bool.not_eq_false', hancestor b' z hz hne']
      exact hderives'
  have hlookup : (Arena.ofDocument style d).1.toGraph.1.lookup? c.id = some x :=
    (Arena.lookup?_eq_some_iff hn).mpr ⟨o, ho, hid⟩
  have hgraph : (Arena.ofDocument style d).1.toGraph.1.hierarchy.parent? x = some y := hparent
  rw [Graph.parentOf?, hlookup, Option.bind_some, hgraph, Option.map_some]
  exact congrArg some (Arena.idOf_of_lookup? hn hy).symm

/-- **The graph of a document says of classes what the compounds say**, if no id is used twice. -/
theorem toldBy_toGraph (style : PermalinkStyle) (hids : d.ids.Nodup) :
    d.ToldBy (Arena.ofDocument style d).1.toGraph.1 (Arena.ofDocument style d).1.toGraph.2 := by
  have hn := Arena.nodup_ids_ofDocument style d
  have ha := Arena.ofDocument_isWrapped style d
  have hderives := derives_roster_eq (p := style) hids
  constructor
  -- The laws of arenas, with derivation by the roster read as derivation by the compounds.
  case mem_relations =>
    intro base derived
    rw [← hderives]
    exact Arena.mem_relations_iff hn
  case nodup_relations => exact Arena.nodup_relations hn
  case mem_ancestors =>
    intro x y
    rw [← hderives]
    exact Arena.mem_ancestorsOf_iff hn
  case mem_children =>
    intro b hb x
    obtain ⟨y, o, ho, hid, hclass, -⟩ := exists_object_of_isClass (p := style) hids hb
    have hy := Arena.collectionOf?_eq_some_iff.mpr ⟨o, ho, hclass⟩
    rw [← hderives, ← hid, ← Arena.idOf_eq ho]
    exact Arena.mem_childrenOf_iff hn ha hy
  case refused =>
    intro c hc base
    obtain ⟨x, o, ho, hid, hclass, -⟩ := exists_object_of_isClass (p := style) hids hc
    have hx := Arena.collectionOf?_eq_some_iff.mpr ⟨o, ho, hclass⟩
    have hxl := Arena.lt_of_collectionOf? hx
    rw [← hderives, ← hid, ← Arena.idOf_eq ho, Arena.parentCycle_mem_toGraph_iff hn ha hx,
      Arena.derives_iff hn]
    constructor
    · rintro ⟨b, hedge, hbx, rfl⟩
      have hbl := Arena.lt_of_collectionOf? (Arena.classes_of_mem_edges hedge).2.1
      exact ⟨⟨x, b, hedge, rfl, rfl⟩, (Arena.transGen_derives_iff hn hbl hxl).mpr hbx⟩
    · rintro ⟨⟨x', b, hedge, hx', rfl⟩, hbx⟩
      obtain ⟨-, hbc, hxc⟩ := Arena.classes_of_mem_edges hedge
      obtain rfl := Arena.idOf_injective hn (Arena.lt_of_collectionOf? hxc) hxl hx'
      have hbl := Arena.lt_of_collectionOf? hbc
      exact ⟨b, hedge, (Arena.transGen_derives_iff hn hbl hxl).mp hbx, rfl⟩
  case parent =>
    intro c hc before base after hlisted hbefore hbase
    exact parentOf?_eq_of_admits hids hc hlisted hbefore hbase

/-- Whoever says what the compounds say in one order says it in any other. -/
theorem ToldBy.of_perm {g : Graph} {warnings : List LinkProblem} (h : d'.ToldBy g warnings)
    (hperm : d.compounds.Perm d'.compounds) : d.ToldBy g warnings := by
  have hclass := isClass_of_perm hperm
  have hderives := derives_of_perm hperm
  have hadmits := admits_of_perm hperm
  constructor
  case mem_relations => exact hderives ▸ h.mem_relations
  case nodup_relations => exact h.nodup_relations
  case mem_ancestors => exact hderives ▸ h.mem_ancestors
  case mem_children => exact hclass ▸ hderives ▸ h.mem_children
  case refused => exact hclass ▸ hderives ▸ h.refused
  case parent => exact hclass ▸ hadmits ▸ h.parent

end Document

/-- Two graphs, and the warnings made of each, say the same of some classes. -/
structure Graph.SameOfClasses (g g' : Graph) (warnings warnings' : List LinkProblem)
    (classes : CompoundDef → Prop) : Prop where
  relations : g'.relations.Perm g.relations
  ancestors : ∀ c, classes c → ∀ id, id ∈ g'.ancestorsOf c.id ↔ id ∈ g.ancestorsOf c.id
  children : ∀ c, classes c → ∀ id, id ∈ g'.childrenOf c.id ↔ id ∈ g.childrenOf c.id
  refused : ∀ c, classes c → ∀ base,
    .parentCycle base c.id ∈ warnings' ↔ .parentCycle base c.id ∈ warnings

namespace Document

variable {d d' : Document} {g g' : Graph} {warnings warnings' : List LinkProblem}

/-- Graphs that say what the compounds say do not differ. -/
theorem ToldBy.same (h : d.ToldBy g warnings) (h' : d.ToldBy g' warnings') :
    g.SameOfClasses g' warnings warnings' d.IsClass where
  relations := by
    rw [List.perm_ext_iff_of_nodup h'.nodup_relations h.nodup_relations]
    rintro ⟨base, derived⟩
    exact (h'.mem_relations base derived).trans (h.mem_relations base derived).symm
  ancestors c _ id := (h'.mem_ancestors c.id id).trans (h.mem_ancestors c.id id).symm
  children c hc id := (h'.mem_children c hc id).trans (h.mem_children c hc id).symm
  refused c hc base := (h'.refused c hc base).trans (h.refused c hc base).symm

/-- **Derivation depends neither on which class lists it nor on the order of files.**  Where no id
is used twice, the graph says of classes what the compounds say, and says the same when the
compounds come in another order, as they do when the files come in another order. -/
theorem toldBy_perm (style : PermalinkStyle) (d : Document) (hids : d.ids.Nodup) :
    (∀ d', d.compounds.Perm d'.compounds →
      d.ToldBy (Arena.ofDocument style d').1.toGraph.1 (Arena.ofDocument style d').1.toGraph.2
      ∧ (Arena.ofDocument style d).1.toGraph.1.SameOfClasses
          (Arena.ofDocument style d').1.toGraph.1 (Arena.ofDocument style d).1.toGraph.2
          (Arena.ofDocument style d').1.toGraph.2 d.IsClass)
    ∧ ∀ roots roots', ofRoots roots = .ok d → roots.Perm roots' →
        ∃ d', ofRoots roots' = .ok d' ∧ d.compounds.Perm d'.compounds := by
  refine ⟨fun d' hperm => ?_, fun roots roots' hd hroots => ofRoots_perm hroots hd⟩
  have hself := toldBy_toGraph style hids
  have hother := (toldBy_toGraph style (nodup_ids_of_perm hperm hids)).of_perm hperm
  exact ⟨hother, hself.same hother⟩

/-- A class with lists of its bases and of the classes derived from it. -/
def classOf (id : String) (bases derived : List String) : CompoundDef where
  id
  kind := "class"
  name := id
  bases := bases.map fun base => ⟨some base, "public", "non-virtual", base⟩
  derived := derived.map fun other => ⟨some other, "public", "non-virtual", other⟩

/-- Classes of which two derive from each other, and one lists itself and a class that there is not
before its bases. -/
def tangledClasses : Document where
  compounds := [classOf "A" ["B"] ["C"], classOf "B" ["A"] ["C"],
    classOf "C" ["C", "Z", "B"] []].map fun c => { kind := .compoundDef, data := .compound c }

/-- Each of the first two classes derives from the other. -/
theorem relations_tangledClasses : (Arena.ofDocument {} tangledClasses).1.toGraph.1.relations
    = [("B", "A"), ("A", "B"), ("B", "C"), ("A", "C")] := by decide

/-- Whichever way these come, the third one is a child of both of the others, and has the one that
it lists as its parent. -/
theorem toldBy_perm_tangledClasses :
    tangledClasses.ids.Nodup ∧ ∀ d', tangledClasses.compounds.Perm d'.compounds →
      (Arena.ofDocument {} d').1.toGraph.1.relations.Perm
          [("B", "A"), ("A", "B"), ("B", "C"), ("A", "C")]
        ∧ (Arena.ofDocument {} d').1.toGraph.1.parentOf? "C" = some "B" := by
  have hids : tangledClasses.ids.Nodup := by decide
  refine ⟨hids, fun d' hperm => ?_⟩
  obtain ⟨htold, hsame⟩ := (toldBy_perm {} tangledClasses hids).1 d' hperm
  have hrelations := hsame.relations
  rw [relations_tangledClasses] at hrelations
  have hderives : ∀ x y, tangledClasses.Derives x y
      ↔ (y, x) ∈ [("B", "A"), ("A", "B"), ("B", "C"), ("A", "C")] := by
    intro x y
    rw [← htold.mem_relations, hrelations.mem_iff]
  -- the two classes above derive from each other, and from nothing else
  have habove : ∀ y, Relation.TransGen tangledClasses.Derives "B" y → y = "A" ∨ y = "B" := by
    intro y hy
    induction hy with
    | single h =>
      rw [hderives] at h
      simp at h
      simp [h]
    | tail _ h ih =>
      rw [hderives] at h
      rcases ih with rfl | rfl <;> simp at h <;> simp [h]
  have hclass : ∀ c ∈ [classOf "B" ["A"] ["C"], classOf "C" ["C", "Z", "B"] []],
      tangledClasses.IsClass c := by
    intro c hc
    refine ⟨{ kind := .compoundDef, data := .compound c }, ?_, rfl, .classLike "class", ?_, rfl⟩
    · refine List.mem_map_of_mem (List.mem_cons_of_mem _ hc)
    · rcases List.mem_cons.mp hc with rfl | hc
      · rfl
      · obtain rfl := List.mem_singleton.mp hc
        rfl
  refine ⟨hrelations, htold.parent (classOf "C" ["C", "Z", "B"] []) (hclass _ (by simp)) ["C", "Z"]
    "B" [] (by decide) ?_ ?_⟩
  · intro b hb hadmits
    rcases List.mem_cons.mp hb with rfl | hb
    · exact hadmits.1 rfl
    · -- no compound has this id
      obtain rfl := List.mem_singleton.mp hb
      obtain ⟨c, ⟨n, hn, hc, -⟩, hid⟩ := hadmits.2.1
      have hmem : "Z" ∈ tangledClasses.ids :=
        List.mem_filterMap.mpr ⟨n, hn, by rw [hc, Option.map_some, hid]⟩
      exact absurd hmem (by decide)
  · refine ⟨by decide, ⟨_, hclass _ List.mem_cons_self, rfl⟩, fun hcycle => ?_⟩
    have hends := habove _ hcycle
    exact absurd hends (by decide)

end Document

end DocGraph
