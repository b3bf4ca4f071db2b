import DocGraph.Proofs.Paths
import DocGraph.Proofs.References

namespace DocGraph

/-!
# Targets within pages

The ids within pages are told by the trees of compounds alone: by what a node is, and by the nodes
above it.

* `Node.IsEntry`, `Node.IsAnchor` — a node is an entry of a table of contents, or an anchor, with an
  id;
* `Node.IsOutsideListings` — a path leads to a node that is not within a program listing or a list
  of members;
* `Graph.HasEntry`, `Graph.HasAnchor` — the page of an object has such a node;
* `Graph.IsHome` — in whose page a target has to be looked for;
* `Graph.FindsTargets`, `Arena.targets_found` — the main statement: every target is found, in its
  home, and nothing else is.
-/

namespace Node

variable {m n : Node} {path : List Nat} {id : String}

/-- An entry of a table of contents, or of a list of contents, with this id. -/
inductive IsEntry (m : Node) (id : String) : Prop where
  | item : m.data = .tocItem id → IsEntry m id
  | listed (name : String) : m.data = .tocSect name id → IsEntry m id

/-- A section, an anchor, or a section of a list of cross-references, with this id. -/
inductive IsAnchor (m : Node) (id : String) : Prop where
  | sect (level : Nat) (title : Option Nat) : m.data = .sect level (some id) title → IsAnchor m id
  | anchor : m.data = .anchor id → IsAnchor m id
  | xref (title : Option String) : m.data = .xrefSect id title → IsAnchor m id

/-- A path leads to a node, and the node is not within a program listing or a list of members. -/
structure IsOutsideListings (n : Node) (path : List Nat) (m : Node) : Prop where
  descend? : n.descend? path = some m
  kind_ne : ∀ above k, above <+: path → above ≠ path → n.descend? above = some k →
    k.kind ≠ .programListing ∧ k.kind ≠ .listOfAllMembers

/-- Entries give their ids to tables of contents. -/
theorem contentsId?_eq_some_iff : m.contentsId? = some id ↔ m.IsEntry id := by
  rw [contentsId?]
  constructor
  · intro hid
    split at hid
    · rename_i id' hdata
      obtain rfl := Option.some.inj hid
      exact .item hdata
    · rename_i name id' hdata
      obtain rfl := Option.some.inj hid
      exact .listed name hdata
    · cases hid
  · rintro (hdata | ⟨name, hdata⟩) <;> rw [hdata]

theorem anchorId?_eq_some_iff : m.anchorId? = some id ↔ m.IsAnchor id := by
  rw [anchorId?]
  constructor
  -- Sections, anchors and cross-references have an anchor each, and no other data has one.
  · intro hid
    split at hid
    · rename_i level id' title hdata
      subst hid
      exact .sect level title hdata
    · rename_i id' hdata
      obtain rfl := Option.some.inj hid
      exact .anchor hdata
    · rename_i id' title hdata
      obtain rfl := Option.some.inj hid
      exact .xref title hdata
    · cases hid
  · rintro (⟨level, title, hdata⟩ | hdata | ⟨title, hdata⟩) <;> rw [hdata]

/-- A walk for anchors goes into all but listings and lists of members. -/
theorem hidesAnchors_eq_false_iff :
    n.hidesAnchors = false ↔ n.kind ≠ .programListing ∧ n.kind ≠ .listOfAllMembers := by
  simp [hidesAnchors]

/-- Anchors are looked for outside of listings. -/
theorem isShownAt_hidesAnchors_iff :
    n.IsShownAt hidesAnchors path m ↔ n.IsOutsideListings path m := by
  constructor
  · rintro ⟨hm, hopen⟩
    exact ⟨hm, fun above k habove hne hk =>
      hidesAnchors_eq_false_iff.mp (hopen above k habove hne hk)⟩
  · rintro ⟨hm, hkind⟩
    exact ⟨hm, fun above k habove hne hk =>
      hidesAnchors_eq_false_iff.mpr (hkind above k habove hne hk)⟩

end Node

namespace Graph

variable {g : Graph} {x : Nat} {id : String}

/-- An entry with an id stands in the page of an object. -/
def HasEntry (g : Graph) (x : Nat) (id : String) : Prop :=
  ∃ n path m, g.node? x = some n ∧ n.IsOutsideListings path m ∧ m.IsEntry id

/-- An anchor with an id stands in the page of an object. -/
def HasAnchor (g : Graph) (x : Nat) (id : String) : Prop :=
  ∃ n path m, g.node? x = some n ∧ n.IsOutsideListings path m ∧ m.IsAnchor id

/-- A walk that does not go into listings finds what stands outside of them. -/
theorem hasWithin_iff_path {idOf? : Node → Option String} :
    g.HasWithin idOf? x id
      ↔ ∃ n path m, g.node? x = some n ∧ n.IsOutsideListings path m ∧ idOf? m = some id := by
  simp only [HasWithin, Node.mem_entered_iff_exists_path, Node.isShownAt_hidesAnchors_iff]
  constructor
  · rintro ⟨n, hn, m, ⟨path, hm⟩, hid⟩
    exact ⟨n, path, m, hn, hm, hid⟩
  · rintro ⟨n, path, m, hn, hm, hid⟩
    exact ⟨n, hn, m, ⟨path, hm⟩, hid⟩

/-- A compound holds an entry if it gives the id to one. -/
theorem hasEntry_iff : g.HasEntry x id ↔ g.HasWithin Node.contentsId? x id := by
  simp only [HasEntry, hasWithin_iff_path, Node.contentsId?_eq_some_iff]

theorem hasAnchor_iff : g.HasAnchor x id ↔ g.HasWithin Node.anchorId? x id := by
  simp only [HasAnchor, hasWithin_iff_path, Node.anchorId?_eq_some_iff]

/-- The object in whose page a target has to be looked for: the one with the id that the target's id
begins with; if there is none, the first in whose page an entry has the id; if there is none either,
the first in whose page an anchor has it. -/
def IsHome (g : Graph) (id : String) (x : Nat) : Prop :=
  g.HasId x (RefId.owner id)
    ∨ (∀ y, ¬ g.HasId y (RefId.owner id))
      ∧ (IsFirst (g.HasEntry · id) x
        ∨ (∀ y, ¬ g.HasEntry y id) ∧ IsFirst (g.HasAnchor · id) x)

/-- The object whose page a target is in. -/
theorem isHome_iff : g.IsHome id x ↔ g.IsPageOf id x := by
  simp only [IsHome, IsPageOf, hasEntry_iff, hasAnchor_iff]

/-- Links to targets within pages. -/
structure FindsTargets (g : Graph) : Prop where
  /-- No target is lost, and its link leads into the page of its home and of no other object. -/
  found : ∀ id x, g.HasEntry x id ∨ g.HasAnchor x id →
    ∃ link home, g.linkTo id .member = .ok link ∧ linkPage link = g.permalink home
      ∧ g.holder? (linkPage link) = some home ∧ ∀ y, g.IsHome id y ↔ y = home
  /-- What is in no page has no link, unless its id begins with that of an object. -/
  unknown : ∀ id, (∀ x, ¬ g.HasEntry x id) → (∀ x, ¬ g.HasAnchor x id) →
    (∀ x, ¬ g.HasId x (RefId.owner id)) →
    g.linkTo id .member = .error (.unresolvedReference none id .member)

end Graph

namespace Arena

/-- **Targets are found** in the page of their home, in the graph of any document. -/
theorem targets_found (style : PermalinkStyle) (d : Document) :
    (ofDocument style d).1.toGraph.1.FindsTargets := by
  have ha := ofDocument_isWrapped style d
  have hn := nodup_ids_ofDocument style d
  generalize (ofDocument style d).1 = a at ha hn
  have hpage : ∀ {id x}, a.toGraph.1.pageOf? id = some x ↔ a.toGraph.1.IsHome id x := by
    intro id x
    rw [pageOf?_eq_some_iff hn, Graph.isHome_iff]
  constructor
  case found =>
    intro id x hid
    -- the id stands in some page, so the look-up ends in one, which can only be that of the home
    obtain ⟨home, hhome⟩ : ∃ home, a.toGraph.1.pageOf? id = some home := by
      rw [Graph.hasEntry_iff, Graph.hasAnchor_iff] at hid
      exact (isSome_pageOf?_iff hn id).mpr (Or.inr (hid.imp (⟨x, ·⟩) (⟨x, ·⟩)))
    have hlt := lt_length_of_isPageOf ((pageOf?_eq_some_iff hn id).mp hhome)
    have hcut : linkPage s!"{a.toGraph.1.permalink home}#{RefId.fragment id}"
        = a.toGraph.1.permalink home := linkPage_eq (isPathText_permalink ha home)
    refine ⟨_, home, ?_, hcut, ?_, fun y => ?_⟩
    · exact (Graph.linkTo_eq_ok_iff (by simp)).mpr ⟨home, hhome, rfl⟩
    · rw [hcut]
      exact holder?_permalink hlt
    · rw [← hpage, hhome, Option.some.injEq, eq_comm]
  case unknown =>
    intro id hentry hanchor howner
    have hnone : a.toGraph.1.pageOf? id = none := by
      rw [Option.eq_none_iff_forall_ne_some]
      intro x hx
      rcases hpage.mp hx with hx | ⟨-, hx | ⟨-, hx⟩⟩
      · exact howner x hx
      · exact hentry x hx.1
      · exact hanchor x hx.1
    simp [Graph.linkTo, hnone]

end Arena

end DocGraph
