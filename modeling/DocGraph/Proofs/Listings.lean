import DocGraph.Proofs.Making
import DocGraph.Proofs.Roots
import DocGraph.Proofs.Targets

namespace DocGraph

/-!
# What listings hide

Program listings and lists of members are not searched for ids.  They hold nothing that has one, but
for the references in code: whatever may stand in running text may stand within a reference, and
there it is overlooked.

* `Form.ofListings`, `NodeKind.listing`, `NodeKind.memberList` — what listings are made of;
* `NodeKind.Confines` — all that stands below nodes of some kinds is of these kinds, unless it
  stands below a node that is let in;
* `Node.IsInLinkedCode`, `Node.mem_entered_or_isInLinkedCode` — what a search overlooks stands
  within a reference in code;
* `Anchors.Agree`, `Graph.RepeatsLinkedCode`, `Arena.anchors_agree_iff` — the main statement: to
  skip listings loses nothing if and only if ids within such references are also found in the open.
-/

/-! ### The forms of listings -/

namespace NodeKind

/-- The kinds of nodes that make up a program listing, apart from references. -/
def listing : List NodeKind := [.programListing, .codeLine, .highlight, .sp]

/-- The kinds of nodes that make up a list of members. -/
def memberList : List NodeKind := [.listOfAllMembers, .member, .scope, .name]

/-- Children of nodes of these kinds are of these kinds again, or of those that are let in. -/
def Confines (kinds admitted : List NodeKind) : Prop :=
  ∀ n : Node, n.IsMade → n.kind ∈ kinds → ∀ c ∈ n.children, c.kind ∈ kinds ∨ c.kind ∈ admitted

end NodeKind

namespace Form

variable {f : Form} {k : NodeKind}

/-- The forms of listings, and of all that looks like a part of them. -/
def ofListings : List Form :=
  [.listing, .codeLine, .highlight, .space, .memberList, .listedMember, .sectionMember, .words]

/-- The forms of what stands in listings and lists of members are among these. -/
theorem mem_ofListings (hk : k ∈ f.kinds) (hlisted : k ∈ NodeKind.listing ++ NodeKind.memberList) :
    f ∈ ofListings := by
  cases f with
  | sect level =>
    have hlevels : ∀ x ∈ NodeKind.levels, x.2 ∉ NodeKind.listing ++ NodeKind.memberList := by decide
    exact absurd hlisted (hlevels _ (mem_levels_of_mem_kinds_sect hk))
  | internal level =>
    obtain rfl := List.mem_singleton.mp hk
    exact absurd hlisted (by decide : NodeKind.internal ∉ _)
  | _ => revert k; decide

/-- What forms of listings let in, by the kind of the node. -/
theorem slots_ofListings : ∀ f ∈ ofListings, f ≠ .variableList ∧ f.takesMarkup = false
    ∧ ∀ k ∈ f.kinds, ∀ slot ∈ f.slots,
      (k ∈ NodeKind.listing → kindOf slot.tag ∈ NodeKind.listing ∨ kindOf slot.tag ∈ [.ref])
        ∧ (k ∈ NodeKind.memberList → kindOf slot.tag ∈ NodeKind.memberList) := by
  decide +kernel

end Form

namespace Node

variable {c m n : Node} {id : String}

/-- **Children of listings** have slots in the forms of listings. -/
theorem IsMade.exists_slot (hn : n.IsMade)
    (hlisted : n.kind ∈ NodeKind.listing ++ NodeKind.memberList) (hc : c ∈ n.children) :
    ∃ f ∈ Form.ofListings, n.kind ∈ f.kinds ∧ ∃ slot ∈ f.slots, Form.kindOf slot.tag = c.kind := by
  cases hn with
  | pair term definition => exact absurd hlisted (by decide : NodeKind.varListPair ∉ _)
  | node f e content hmakes =>
    -- the kind of the node tells its form, or one of a few
    have hf := Form.mem_ofListings hmakes.kind_mem hlisted
    obtain ⟨hlist, hmarkup, -⟩ := Form.slots_ofListings f hf
    have hchildren : (f.node e content).children = Content.children content := by
      rw [children, Form.node, Form.arrange, if_neg hlist]
    rw [hchildren] at hc
    obtain ⟨slot, e', content', hslot, -, rfl⟩ := hmakes.child c hc
    obtain ⟨hmem, htag⟩ := Form.mem_slots_of_slot? hmarkup hslot
    exact ⟨f, hf, hmakes.kind_mem, slot, hmem, congrArg Form.kindOf htag⟩

/-- **Nodes of listings have no ids** of places within the page. -/
theorem IsMade.no_id (hn : n.IsMade) (hlisted : n.kind ∈ NodeKind.listing ++ NodeKind.memberList) :
    n.contentsId? = none ∧ n.anchorId? = none := by
  cases hn with
  | pair term definition => exact ⟨rfl, rfl⟩
  | node f e content hmakes =>
    have hf := Form.mem_ofListings hmakes.kind_mem hlisted
    simp only [Form.ofListings, List.mem_cons, List.not_mem_nil, or_false] at hf
    rcases hf with rfl | rfl | rfl | rfl | rfl | rfl | rfl | rfl <;> exact ⟨rfl, rfl⟩

end Node

namespace NodeKind

/-- **Program listings hold references only**, apart from their own parts. -/
theorem confines_listing : Confines listing [.ref] := by
  intro n hn hlisting c hc
  obtain ⟨f, hf, hk, slot, hslot, hkind⟩ := hn.exists_slot (List.mem_append_left _ hlisting) hc
  rw [← hkind]
  exact ((Form.slots_ofListings f hf).2.2 n.kind hk slot hslot).1 hlisting

/-- **Lists of members hold nothing** but their own parts. -/
theorem confines_memberList : Confines memberList [] := by
  intro n hn hlist c hc
  obtain ⟨f, hf, hk, slot, hslot, hkind⟩ := hn.exists_slot (List.mem_append_right _ hlist) hc
  rw [← hkind]
  exact Or.inl (((Form.slots_ofListings f hf).2.2 n.kind hk slot hslot).2 hlist)

end NodeKind

/-! ### Below a listing -/

namespace Node

variable {c l m n : Node} {id : String} {kinds admitted : List NodeKind}

/-- What stands below a node of these kinds is of these kinds, or below a node that is let in. -/
theorem mem_kinds_or_below (hconfines : NodeKind.Confines kinds admitted)
    (hmade : ∀ m ∈ n.entered fun _ => false, m.IsMade) (hn : n.kind ∈ kinds)
    (hm : m ∈ n.entered fun _ => false) :
    m.kind ∈ kinds
      ∨ ∃ r ∈ n.entered fun _ => false, r.kind ∈ admitted ∧ m ∈ r.entered fun _ => false := by
  induction n using Node.induction with
  | step n ih =>
    rcases mem_entered_iff.mp hm with rfl | ⟨-, c, hc, hm⟩
    · exact Or.inl hn
    · have hbelow : ∀ {k}, (k ∈ c.entered fun _ => false) → k ∈ n.entered fun _ => false :=
        mem_entered_all_of_child hc
      -- the child is of these kinds again, or it is the one that is let in
      rcases hconfines n (hmade n mem_entered_self) hn c hc with hkind | hadmitted
      · have hmade' : ∀ k ∈ c.entered fun _ => false, k.IsMade := fun k hk => hmade k (hbelow hk)
        rcases ih c hc hmade' hkind hm with hkind | ⟨r, hr, hadmitted, hm⟩
        · exact Or.inl hkind
        · exact Or.inr ⟨r, hbelow hr, hadmitted, hm⟩
      · exact Or.inr ⟨c, hbelow mem_entered_self, hadmitted, hm⟩

/-- A node stands within a reference in a program listing. -/
inductive IsInLinkedCode (n m : Node) : Prop
  | intro (l r : Node) (toListing toRef toNode : List Nat) :
    n.descend? toListing = some l → l.kind = .programListing → l.descend? toRef = some r →
    r.kind = .ref → r.descend? toNode = some m → IsInLinkedCode n m

/-- Linked code is within a reference within a listing. -/
theorem isInLinkedCode_iff :
    n.IsInLinkedCode m ↔ ∃ l ∈ n.entered fun _ => false, l.kind = .programListing
      ∧ ∃ r ∈ l.entered fun _ => false, r.kind = .ref ∧ m ∈ r.entered fun _ => false := by
  simp only [mem_entered_all_iff]
  constructor
  · rintro ⟨l, r, toListing, toRef, toNode, hl, hlisting, hr, href, hm⟩
    exact ⟨l, ⟨toListing, hl⟩, hlisting, r, ⟨toRef, hr⟩, href, toNode, hm⟩
  · rintro ⟨l, ⟨toListing, hl⟩, hlisting, r, ⟨toRef, hr⟩, href, toNode, hm⟩
    exact ⟨l, r, toListing, toRef, toNode, hl, hlisting, hr, href, hm⟩

theorem IsInLinkedCode.mem_entered (hm : n.IsInLinkedCode m) : m ∈ n.entered fun _ => false := by
  obtain ⟨l, hl, -, r, hr, -, hm⟩ := isInLinkedCode_iff.mp hm
  exact mem_entered_all_trans hl (mem_entered_all_trans hr hm)

/-- **A search overlooks** only what stands within a reference in code. -/
theorem mem_entered_or_isInLinkedCode (hmade : ∀ m ∈ n.entered fun _ => false, m.IsMade)
    (hm : m ∈ n.entered fun _ => false) (hid : m.contentsId? = some id ∨ m.anchorId? = some id) :
    m ∈ n.entered hidesAnchors ∨ n.IsInLinkedCode m := by
  rcases mem_entered_or_below hidesAnchors hm with hm' | ⟨l, hl, hhides, c, hc, hbelow⟩
  · exact Or.inl hm'
  · have hl := mem_entered_all hl
    have hbelow : m ∈ l.entered fun _ => false := mem_entered_all_of_child hc hbelow
    have hmade' : ∀ k ∈ l.entered fun _ => false, k.IsMade := fun k hk =>
      hmade k (mem_entered_all_trans hl hk)
    -- a node with an id is no part of a listing
    have hnot : m.kind ∉ NodeKind.listing ++ NodeKind.memberList := by
      intro hlisted
      obtain ⟨hcontents, hanchor⟩ := (hmade m hm).no_id hlisted
      simp [hcontents, hanchor] at hid
    rw [List.mem_append, not_or] at hnot
    have hkind : l.kind = .programListing ∨ l.kind = .listOfAllMembers := by
      simpa [hidesAnchors] using hhides
    rcases hkind with hkind | hkind
    · have hlisting : l.kind ∈ NodeKind.listing := by rw [hkind]; decide
      rcases mem_kinds_or_below NodeKind.confines_listing hmade' hlisting hbelow with
        hpart | ⟨r, hr, href, hm⟩
      · exact absurd hpart hnot.1
      · exact Or.inr (isInLinkedCode_iff.mpr
          ⟨l, hl, hkind, r, hr, List.mem_singleton.mp href, hm⟩)
    · -- nothing is let into a list of members
      have hlist : l.kind ∈ NodeKind.memberList := by rw [hkind]; decide
      rcases mem_kinds_or_below NodeKind.confines_memberList hmade' hlist hbelow with
        hpart | ⟨r, -, hnone, -⟩
      · exact absurd hpart hnot.2
      · exact absurd hnone List.not_mem_nil

end Node

/-! ### Searches of everything -/

/-- Two searches find the same: an id belongs to the same object in both. -/
structure Anchors.Agree (a b : Anchors) : Prop where
  contents : ∀ id, a.contents? id = b.contents? id
  inline : ∀ id, a.inline? id = b.inline? id

/-- What a search finds first is the same in a list where more is found, if whatever else is found
is preceded. -/
theorem findIdx?_eq_findIdx?_iff {α : Type} {l : List α} {p q : α → Bool}
    (hpq : ∀ a ∈ l, p a = true → q a = true) :
    l.findIdx? p = l.findIdx? q ↔ ∀ (x : Nat) (a : α), l[x]? = some a → q a = true →
      ∃ y ≤ x, ∃ b, l[y]? = some b ∧ p b = true := by
  constructor
  · intro heq x a ha hqa
    -- the first place where `q` holds is not behind `x`, and it is the first where `p` does
    have hsome : (l.findIdx? q).isSome := by
      rw [List.findIdx?_isSome, List.any_eq_true]
      exact ⟨a, List.mem_of_getElem? ha, hqa⟩
    obtain ⟨y, hy⟩ := Option.isSome_iff_exists.mp hsome
    obtain ⟨_, _, hleast⟩ := List.findIdx?_eq_some_iff_getElem.mp hy
    obtain ⟨hlt, hpy, -⟩ := List.findIdx?_eq_some_iff_getElem.mp (heq.trans hy)
    refine ⟨y, ?_, l[y], List.getElem?_eq_getElem hlt, hpy⟩
    by_contra hyx
    obtain ⟨hx, rfl⟩ := List.getElem?_eq_some_iff.mp ha
    exact hleast x (by omega) hqa
  · intro hpreceded
    cases hq : l.findIdx? q with
    | none =>
      rw [List.findIdx?_eq_none_iff] at hq ⊢
      intro a ha
      have hqa := hq a ha
      cases hpa : p a with
      | false => rfl
      | true => rw [hpq a ha hpa] at hqa; cases hqa
    | some x =>
      obtain ⟨hx, hqx, hleast⟩ := List.findIdx?_eq_some_iff_getElem.mp hq
      obtain ⟨y, hyx, b, hb, hpb⟩ := hpreceded x l[x] (List.getElem?_eq_getElem hx) hqx
      obtain ⟨hy, rfl⟩ := List.getElem?_eq_some_iff.mp hb
      -- what is found at `y` would be found first, so it is found at `x`
      obtain rfl : y = x := by
        by_contra hne
        exact hleast y (by omega) (hpq _ (List.getElem_mem hy) hpb)
      refine List.findIdx?_eq_some_iff_getElem.mpr ⟨hx, hpb, fun z hz hpz => ?_⟩
      exact hleast z hz (hpq _ (List.getElem_mem _) hpz)

namespace Graph

variable {g : Graph} {x : Nat} {id : String}

/-- An entry with an id stands within a reference in the code of the page of an object. -/
def HasLinkedEntry (g : Graph) (x : Nat) (id : String) : Prop :=
  ∃ n m, g.node? x = some n ∧ n.IsInLinkedCode m ∧ m.IsEntry id

/-- An anchor with an id stands within a reference in the code of the page of an object. -/
def HasLinkedAnchor (g : Graph) (x : Nat) (id : String) : Prop :=
  ∃ n m, g.node? x = some n ∧ n.IsInLinkedCode m ∧ m.IsAnchor id

/-- Whatever stands within a reference in code also stands in the open, and no later. -/
structure RepeatsLinkedCode (g : Graph) : Prop where
  entry : ∀ id x, g.HasLinkedEntry x id → ∃ y ≤ x, g.HasEntry y id
  anchor : ∀ id x, g.HasLinkedAnchor x id → ∃ y ≤ x, g.HasAnchor y id

end Graph

namespace Arena

variable {a : Arena} {idOf? : Node → Option String} {id : String}

/-- What is found in the compound of an object if nothing is skipped. -/
theorem mem_idsEntered_all_iff (hidOf : ∀ m id, idOf? m = some id →
      m.contentsId? = some id ∨ m.anchorId? = some id)
    (hmade : ∀ n ∈ a.document.compounds, ∀ m ∈ n.entered fun _ => false, m.IsMade) {o : Object} :
    id ∈ a.idsEntered (fun _ => false) idOf? o ↔ id ∈ a.idsWithin idOf? o ∨ ∃ n m,
      a.document.compound? o.compound = some n ∧ n.IsInLinkedCode m ∧ idOf? m = some id := by
  rw [idsWithin, mem_idsEntered_iff, mem_idsEntered_iff]
  constructor
  · rintro ⟨n, hn, m, hm, hid⟩
    have hmade := hmade n (List.mem_of_getElem? hn)
    rcases Node.mem_entered_or_isInLinkedCode hmade hm (hidOf m id hid) with hm | hm
    · exact Or.inl ⟨n, hn, m, hm, hid⟩
    · exact Or.inr ⟨n, m, hn, hm, hid⟩
  · rintro (⟨n, hn, m, hm, hid⟩ | ⟨n, m, hn, hm, hid⟩)
    · exact ⟨n, hn, m, Node.mem_entered_all hm, hid⟩
    · exact ⟨n, hn, m, hm.mem_entered, hid⟩

/-- **An id is found in the same page** if nothing is skipped, unless it is only found within a
reference in code before. -/
theorem findIdx?_idsWithin_eq_iff (hidOf : ∀ m id, idOf? m = some id →
      m.contentsId? = some id ∨ m.anchorId? = some id)
    (hmade : ∀ n ∈ a.document.compounds, ∀ m ∈ n.entered fun _ => false, m.IsMade) :
    (a.objects.findIdx? fun o => id ∈ a.idsWithin idOf? o)
        = (a.objects.findIdx? fun o => id ∈ a.idsEntered (fun _ => false) idOf? o)
      ↔ ∀ x, (∃ n m, a.toGraph.1.node? x = some n ∧ n.IsInLinkedCode m ∧ idOf? m = some id) →
        ∃ y ≤ x, a.toGraph.1.HasWithin idOf? y id := by
  -- Entering everything finds what is found in the open, and what linked code hides.
  have hmem : ∀ {o}, id ∈ a.idsEntered (fun _ => false) idOf? o ↔ id ∈ a.idsWithin idOf? o
      ∨ ∃ n m, a.document.compound? o.compound = some n ∧ n.IsInLinkedCode m ∧ idOf? m = some id :=
    mem_idsEntered_all_iff hidOf hmade
  rw [findIdx?_eq_findIdx?_iff fun o _ => by simpa [hmem] using Or.inl]
  simp only [decide_eq_true_eq, hasWithin_iff, hmem, Arena.node?, Option.bind_eq_some_iff]
  constructor
  · rintro hpreceded x ⟨n, m, ⟨o, ho, hn⟩, hm, hid⟩
    exact hpreceded x o ho (Or.inr ⟨n, m, hn, hm, hid⟩)
  · rintro hpreceded x o ho (hid | ⟨n, m, hn, hm, hid⟩)
    · exact ⟨x, Nat.le_refl x, o, ho, hid⟩
    · exact hpreceded x ⟨n, m, ⟨o, ho, hn⟩, hm, hid⟩

/-- **What is lost by skipping listings.**  In the graph of any document, the anchors are those that
a search of everything finds, if and only if all ids within references in code stand in the open
as well, and no later. -/
theorem anchors_agree_iff {roots : List Element} {d : Document} (style : PermalinkStyle)
    (hd : Document.ofRoots roots = .ok d) :
    (ofDocument style d).1.anchors.Agree ((ofDocument style d).1.anchorsEntered fun _ => false)
      ↔ (ofDocument style d).1.toGraph.1.RepeatsLinkedCode := by
  have hmade : ∀ n ∈ (ofDocument style d).1.document.compounds,
      ∀ m ∈ n.entered fun _ => false, m.IsMade := by
    intro n hn
    obtain ⟨e, he⟩ := Document.exists_buildCompound hd n hn
    exact isMade_of_buildCompound he
  generalize (ofDocument style d).1 = a at hmade
  -- An id keeps its first owner if none stands on an earlier page, and that page by page.
  have hentry : (∀ id, a.anchors.contents? id = (a.anchorsEntered fun _ => false).contents? id)
      ↔ ∀ id x, a.toGraph.1.HasLinkedEntry x id → ∃ y ≤ x, a.toGraph.1.HasEntry y id := by
    refine forall_congr' fun id => ?_
    rw [contents?_anchors, contents?_anchorsEntered,
      findIdx?_idsWithin_eq_iff (fun m id => Or.inl) hmade]
    simp only [Graph.HasLinkedEntry, Graph.hasEntry_iff, Node.contentsId?_eq_some_iff]
  have hanchor : (∀ id, a.anchors.inline? id = (a.anchorsEntered fun _ => false).inline? id)
      ↔ ∀ id x, a.toGraph.1.HasLinkedAnchor x id → ∃ y ≤ x, a.toGraph.1.HasAnchor y id := by
    refine forall_congr' fun id => ?_
    rw [inline?_anchors, inline?_anchorsEntered,
      findIdx?_idsWithin_eq_iff (fun m id => Or.inr) hmade]
    simp only [Graph.HasLinkedAnchor, Graph.hasAnchor_iff, Node.anchorId?_eq_some_iff]
  exact ⟨fun h => ⟨hentry.mp h.contents, hanchor.mp h.inline⟩,
    fun h => ⟨hentry.mpr h.entry, hanchor.mpr h.anchor⟩⟩

/-- The code of a page, with a reference to the page that an anchor stands in. -/
def anchoredCode : Element where
  name := "programlisting"
  content := [.child {
    name := "codeline"
    content := [.child {
      name := "highlight"
      attributes := [⟨"class", "normal"⟩]
      content := [.child {
        name := "ref"
        attributes := [⟨"refid", "page_a"⟩, ⟨"kindref", "compound"⟩]
        content := [.text "a", .child { name := "anchor", attributes := [⟨"id", "here"⟩] }] }] }] }]

/-- The root of a file with a page that shows the code. -/
def anchoredPage : Element where
  name := "doxygen"
  attributes := [⟨"version", "1.9.8"⟩]
  content := [.child {
    name := "compounddef"
    attributes := [⟨"id", "page_a"⟩, ⟨"kind", "page"⟩]
    content := [
      .child { name := "compoundname", content := [.text "a"] },
      .child {
        name := "detaileddescription"
        content := [.child { name := "para", content := [.child anchoredCode] }] }] }]

/-- **The anchor is in the page, but not found.** -/
theorem not_agree_anchoredPage :
    ∃ d, Document.ofRoots [anchoredPage] = .ok d
      ∧ ¬ (ofDocument {} d).1.anchors.Agree
        ((ofDocument {} d).1.anchorsEntered fun _ => false) := by
  have heval : ((Document.ofRoots [anchoredPage]).toOption.any fun d =>
      (ofDocument {} d).1.anchors.inline? "here" = none
        && ((ofDocument {} d).1.anchorsEntered fun _ => false).inline? "here" = some 0) = true := by
    decide +kernel
  obtain ⟨d, hd, heval⟩ := exists_eq_ok_of_any heval
  rw [Bool.and_eq_true, decide_eq_true_eq, decide_eq_true_eq] at heval
  refine ⟨d, hd, fun hagree => ?_⟩
  have heq := hagree.inline "here"
  rw [heval.1, heval.2] at heq
  cases heq

/-- Hence its id stands nowhere in the open. -/
theorem anchors_agree_iff_anchoredPage :
    ∃ d, Document.ofRoots [anchoredPage] = .ok d
      ∧ ¬ (ofDocument {} d).1.toGraph.1.RepeatsLinkedCode := by
  obtain ⟨d, hd, hnot⟩ := not_agree_anchoredPage
  exact ⟨d, hd, fun hrepeats => hnot ((anchors_agree_iff {} hd).mpr hrepeats)⟩

end Arena

end DocGraph
