import DocGraph.Proofs.Building
import DocGraph.Proofs.Targets

namespace DocGraph

/-!
# Places told apart

A link names a place within a page by the end of the id alone, so places may share a link.

* `Graph.HasPlace`, `Graph.LeadsInto` — an id is given to a place in the compound of an object, and
  its link leads into the page of the object;
* `Graph.TellsApart` — no two places of a page share a link;
* `Arena.linkTo_eq_linkTo_iff` — two links into one page are the same if the ids end in the same
  label;
* `Arena.tellsApart_iff` — the main statement: a page tells its places apart if and only if no two
  of their ids do;
* `Arena.not_tellsApart_numberedSections` — labels that end alike are enough for two sections to
  share a link.
-/

namespace Graph

variable {g : Graph} {x : Nat} {id : String}

/-- The compound of an object gives an id to a place: an entry of a table of contents, a section, an
anchor, or a section of a list of cross-references. -/
def HasPlace (g : Graph) (x : Nat) (id : String) : Prop :=
  ∃ n path m, g.node? x = some n ∧ n.descend? path = some m ∧ (m.IsEntry id ∨ m.IsAnchor id)

/-- The link to a place leads into the page of an object. -/
def LeadsInto (g : Graph) (id : String) (x : Nat) : Prop :=
  ∃ link, g.linkTo id .member = .ok link ∧ g.holder? (linkPage link) = some x

/-- No two places of an object's compound share a link into its page. -/
def TellsApart (g : Graph) (x : Nat) : Prop :=
  ∀ id id', g.HasPlace x id → g.LeadsInto id x → g.HasPlace x id' → g.LeadsInto id' x → id ≠ id' →
    g.linkTo id .member ≠ g.linkTo id' .member

theorem hasPlace_of_anchorId? {path : List Nat}
    (hid : ((g.node? x).bind (·.descend? path)).bind Node.anchorId? = some id) :
    g.HasPlace x id := by
  obtain ⟨m, hm, hid⟩ := Option.bind_eq_some_iff.mp hid
  obtain ⟨n, hn, hm⟩ := Option.bind_eq_some_iff.mp hm
  exact ⟨n, path, m, hn, hm, Or.inr (Node.anchorId?_eq_some_iff.mp hid)⟩

end Graph

namespace Arena

variable {a : Arena} {x : Nat} {id id' : String}

/-- **A link into a page** is the permalink of the page and the fragment of the id. -/
theorem linkTo_of_leadsInto (ha : a.IsWrapped) (hn : (a.objects.map (·.id)).Nodup)
    (hx : a.toGraph.1.LeadsInto id x) :
    a.toGraph.1.linkTo id .member = .ok s!"{a.toGraph.1.permalink x}#{RefId.fragment id}" := by
  obtain ⟨link, hlink, hholder⟩ := hx
  obtain ⟨home, hhome, rfl⟩ := (Graph.linkTo_eq_ok_iff (by simp)).mp hlink
  have hlt := lt_length_of_isPageOf ((pageOf?_eq_some_iff hn id).mp hhome)
  rw [linkPage_eq (isPathText_permalink ha home), holder?_permalink hlt] at hholder
  obtain rfl := Option.some.inj hholder
  exact hlink

/-- **Two links into one page** are the same if and only if the ids end in the same label. -/
theorem linkTo_eq_linkTo_iff (ha : a.IsWrapped) (hn : (a.objects.map (·.id)).Nodup)
    (hx : a.toGraph.1.LeadsInto id x) (hx' : a.toGraph.1.LeadsInto id' x) :
    a.toGraph.1.linkTo id .member = a.toGraph.1.linkTo id' .member
      ↔ ∃ label, RefId.EndsIn id label ∧ RefId.EndsIn id' label := by
  have hpath := isPathText_permalink ha x
  rw [linkTo_of_leadsInto ha hn hx, linkTo_of_leadsInto ha hn hx', Except.ok.injEq]
  constructor
  · intro hlink
    have hplace := congrArg linkPlace hlink
    rw [linkPlace_eq hpath, linkPlace_eq hpath] at hplace
    exact ⟨_, RefId.fragment_eq_iff.mp hplace, RefId.fragment_eq_iff.mp rfl⟩
  · rintro ⟨label, hid, hid'⟩
    rw [RefId.fragment_eq_iff.mpr hid, RefId.fragment_eq_iff.mpr hid']

/-- **A page tells its places apart** if and only if no two of their ids end in the same label. -/
theorem tellsApart_iff (style : PermalinkStyle) (d : Document) (x : Nat) :
    let g := (ofDocument style d).1.toGraph.1
    g.TellsApart x ↔ ∀ id id' label, g.HasPlace x id → g.LeadsInto id x → g.HasPlace x id' →
      g.LeadsInto id' x → RefId.EndsIn id label → RefId.EndsIn id' label → id = id' := by
  have ha := ofDocument_isWrapped style d
  have hn := nodup_ids_ofDocument style d
  generalize (ofDocument style d).1 = a at ha hn
  intro g
  constructor
  · intro happart id id' label hid hx hid' hx' hlabel hlabel'
    by_contra hne
    exact happart id id' hid hx hid' hx' hne
      ((linkTo_eq_linkTo_iff ha hn hx hx').mpr ⟨label, hlabel, hlabel'⟩)
  · intro hends id id' hid hx hid' hx' hne hlink
    obtain ⟨label, hlabel, hlabel'⟩ := (linkTo_eq_linkTo_iff ha hn hx hx').mp hlink
    exact hne (hends id id' label hid hx hid' hx' hlabel hlabel')

/-- The root of a file with a page of two sections.  Their labels are `step_1` and `list_1`, which
begin differently and end alike. -/
def numberedSections : Element where
  name := "doxygen"
  attributes := [⟨"version", "1.9.8"⟩]
  content := [.child {
    name := "compounddef"
    attributes := [⟨"id", "page_a"⟩, ⟨"kind", "page"⟩]
    content := [
      .child { name := "compoundname", content := [.text "a"] },
      .child {
        name := "detaileddescription"
        content := [
          .child {
            name := "sect1"
            attributes := [⟨"id", "page_a_1step_1"⟩]
            content := [.child { name := "title", content := [.text "One"] }] },
          .child {
            name := "sect1"
            attributes := [⟨"id", "page_a_1list_1"⟩]
            content := [.child { name := "title", content := [.text "Two"] }] }] }] }]

/-- **Two sections of one page share a link**, which names no place at all. -/
theorem not_tellsApart_numberedSections :
    ∃ d, Document.ofRoots [numberedSections] = .ok d
      ∧ (ofDocument {} d).1.toGraph.1.linkTo "page_a_1step_1" .member = .ok "pages/a#"
      ∧ (ofDocument {} d).1.toGraph.1.linkTo "page_a_1list_1" .member = .ok "pages/a#"
      ∧ ¬ (ofDocument {} d).1.toGraph.1.TellsApart 0 := by
  -- The document is built and linked once; both ids stand on the page and share its link.
  have heval : ((Document.ofRoots [numberedSections]).toOption.any fun d =>
      let g := (ofDocument {} d).1.toGraph.1
      let idAt (path : List Nat) := ((g.node? 0).bind (·.descend? path)).bind Node.anchorId?
      g.linkTo "page_a_1step_1" .member = .ok "pages/a#"
        && g.linkTo "page_a_1list_1" .member = .ok "pages/a#"
        && g.holder? (linkPage "pages/a#") = some 0
        && idAt [1, 0] = some "page_a_1step_1" && idAt [1, 1] = some "page_a_1list_1") = true := by
    decide +kernel
  obtain ⟨d, hd, heval⟩ := exists_eq_ok_of_any heval
  simp only [Bool.and_eq_true, decide_eq_true_eq] at heval
  obtain ⟨⟨⟨⟨hstep, hlist⟩, hpage⟩, hstepAt⟩, hlistAt⟩ := heval
  refine ⟨d, hd, hstep, hlist, fun happart => ?_⟩
  have hplace := Graph.hasPlace_of_anchorId? hstepAt
  have hplace' := Graph.hasPlace_of_anchorId? hlistAt
  have hdiffer := happart _ _ hplace ⟨_, hstep, hpage⟩ hplace' ⟨_, hlist, hpage⟩ (by decide)
  exact hdiffer (hstep.trans hlist.symm)

end Arena

end DocGraph
