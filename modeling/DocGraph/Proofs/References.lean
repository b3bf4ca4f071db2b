import DocGraph.Proofs.Identity
import DocGraph.Proofs.PathText
import DocGraph.Proofs.RefIds
import Mathlib.Data.List.Find

namespace DocGraph

/-!
# Where references lead

* `Arena.contents?_anchors`, `Arena.inline?_anchors` — an id within a page belongs to the first
  object whose compound gives it to one of its nodes;
* `Graph.HasId`, `Graph.HasWithin`, `Graph.IsPageOf` — which object has an id, which gives it to a
  place within its page, and in whose page the target of a reference is;
* `Arena.pageOf?_eq_some_iff` — the look-up finds exactly that object;
* `linkPage`, `linkPlace` — the two parts of a link, cut at its first number sign;
* `Graph.ReferencesDecode`, `Arena.references_decode` — the main statement: links are made of the
  permalink of a page and the fragment of the id, and both can be read off them again.
-/

/-! ### Ids within pages -/

/-- The ids of a compound, as far as a walk goes that skips what is below the nodes that `prune`
selects. -/
def Anchors.addEntered (a : Anchors) (prune : Node → Bool) (owner : Nat) (compound : Node) :
    Anchors :=
  let nodes := compound.entered prune
  ⟨a.contents ++ (nodes.filterMap Node.contentsId?).map (·, owner),
   a.inline ++ (nodes.filterMap Node.anchorId?).map (·, owner)⟩

namespace Arena

variable {a : Arena} {x : Nat} {id : String}

/-- The anchors in the compounds of all objects, as far as walks go that skip what is below the
nodes that `prune` selects. -/
def anchorsEntered (a : Arena) (prune : Node → Bool) : Anchors :=
  a.objects.zipIdx.foldl (fun anchors (o, i) =>
    match a.document.compound? o.compound with
    | some n => anchors.addEntered prune i n
    | none => anchors) {}

/-- The ids that the compound of an object gives to the nodes that a walk enters, as `idOf?` reads
them. -/
def idsEntered (a : Arena) (prune : Node → Bool) (idOf? : Node → Option String) (o : Object) :
    List String :=
  match a.document.compound? o.compound with
  | some n => (n.entered prune).filterMap idOf?
  | none => []

/-- The ids given are those of nodes that the walk enters. -/
theorem mem_idsEntered_iff {prune : Node → Bool} {idOf? : Node → Option String} {o : Object} :
    id ∈ a.idsEntered prune idOf? o
      ↔ ∃ n, a.document.compound? o.compound = some n
        ∧ ∃ m ∈ n.entered prune, idOf? m = some id := by
  rw [idsEntered]
  cases a.document.compound? o.compound <;> simp [List.mem_filterMap]

/-- The ids that the compound of an object gives to its nodes, as `idOf?` reads them. -/
def idsWithin (a : Arena) (idOf? : Node → Option String) (o : Object) : List String :=
  a.idsEntered Node.hidesAnchors idOf? o

/-- The anchors of all objects, one object after the other. -/
theorem foldl_addEntered (a : Arena) (prune : Node → Bool) (objects : List (Object × Nat))
    (found : Anchors) :
    objects.foldl (fun anchors (o, i) =>
        match a.document.compound? o.compound with
        | some n => anchors.addEntered prune i n
        | none => anchors) found
      = ⟨found.contents ++ objects.flatMap fun (o, i) =>
            (a.idsEntered prune Node.contentsId? o).map (·, i),
          found.inline ++ objects.flatMap fun (o, i) =>
            (a.idsEntered prune Node.anchorId? o).map (·, i)⟩ := by
  induction objects generalizing found with
  | nil => simp
  | cons e objects ih =>
    obtain ⟨o, i⟩ := e
    rw [List.foldl_cons, ih]
    cases hn : a.document.compound? o.compound <;> simp [idsEntered, Anchors.addEntered, hn]

/-- **Anchors are those of all objects**, one after the other, each with the place of the object. -/
theorem anchorsEntered_eq (a : Arena) (prune : Node → Bool) :
    a.anchorsEntered prune = ⟨a.objects.zipIdx.flatMap fun (o, i) =>
          (a.idsEntered prune Node.contentsId? o).map (·, i),
        a.objects.zipIdx.flatMap fun (o, i) =>
          (a.idsEntered prune Node.anchorId? o).map (·, i)⟩ :=
  a.foldl_addEntered prune a.objects.zipIdx {}

end Arena

/-- Among the ids of one object, each leads to the object. -/
theorem lookup_map_const (ids : List String) (id : String) (i : Nat) :
    (ids.map (·, i)).lookup id = if id ∈ ids then some i else none := by
  induction ids with
  | nil => rfl
  | cons id' ids ih =>
    rw [List.map_cons, List.lookup_cons, ih]
    by_cases hid : id = id'
    · simp [hid]
    · simp [hid, beq_false_of_ne hid]

/-- The first entry under an id is of the first object that has it. -/
theorem lookup_flatMap_zipIdx (objects : List Object) (ids : Object → List String) (id : String)
    (start : Nat) :
    ((objects.zipIdx start).flatMap fun (o, i) => (ids o).map (·, i)).lookup id
      = (objects.findIdx? fun o => id ∈ ids o).map (· + start) := by
  induction objects generalizing start with
  | nil => rfl
  | cons o objects ih =>
    rw [List.zipIdx_cons, List.flatMap_cons, List.lookup_append, lookup_map_const, ih,
      List.findIdx?_cons]
    by_cases hid : id ∈ ids o
    · simp [hid]
    · simp [hid, Function.comp_def, Nat.add_assoc, Nat.add_comm 1 start]

namespace Arena

variable {a : Arena} {id : String}

/-- The owner of an entry is the first object that gives the id. -/
theorem contents?_anchorsEntered (a : Arena) (prune : Node → Bool) (id : String) :
    (a.anchorsEntered prune).contents? id
      = a.objects.findIdx? fun o => id ∈ a.idsEntered prune Node.contentsId? o := by
  rw [anchorsEntered_eq, Anchors.contents?, lookup_flatMap_zipIdx]
  simp

/-- The owner of an anchor is the first one, too. -/
theorem inline?_anchorsEntered (a : Arena) (prune : Node → Bool) (id : String) :
    (a.anchorsEntered prune).inline? id
      = a.objects.findIdx? fun o => id ∈ a.idsEntered prune Node.anchorId? o := by
  rw [anchorsEntered_eq, Anchors.inline?, lookup_flatMap_zipIdx]
  simp

theorem contents?_anchors (a : Arena) (id : String) :
    a.anchors.contents? id = a.objects.findIdx? fun o => id ∈ a.idsWithin Node.contentsId? o :=
  a.contents?_anchorsEntered Node.hidesAnchors id

theorem inline?_anchors (a : Arena) (id : String) :
    a.anchors.inline? id = a.objects.findIdx? fun o => id ∈ a.idsWithin Node.anchorId? o :=
  a.inline?_anchorsEntered Node.hidesAnchors id

end Arena

/-! ### The page of a target -/

namespace Graph

/-- The object at a place has this id. -/
def HasId (g : Graph) (x : Nat) (id : String) : Prop :=
  ∃ o, g.objects[x]? = some o ∧ o.id = id

/-- The compound of the object gives an id to one of its nodes, as `idOf?` reads it. -/
def HasWithin (g : Graph) (idOf? : Node → Option String) (x : Nat) (id : String) : Prop :=
  ∃ n, g.node? x = some n ∧ ∃ m ∈ n.entered Node.hidesAnchors, idOf? m = some id

/-- No object before this one has the property. -/
def IsFirst (P : Nat → Prop) (x : Nat) : Prop := P x ∧ ∀ y < x, ¬ P y

/-- In the page of this object is the target of a reference to a member or section: it has the id
that the reference begins with.  If there is no such object, it is the first with such an entry in a
table of contents, and if there is none either, the first with such an anchor. -/
def IsPageOf (g : Graph) (refid : String) (x : Nat) : Prop :=
  g.HasId x (RefId.owner refid)
    ∨ (∀ y, ¬ g.HasId y (RefId.owner refid))
      ∧ (IsFirst (g.HasWithin Node.contentsId? · refid) x
        ∨ (∀ y, ¬ g.HasWithin Node.contentsId? y refid)
          ∧ IsFirst (g.HasWithin Node.anchorId? · refid) x)

end Graph

namespace Arena

variable {a : Arena} {x : Nat} {id : String} {idOf? : Node → Option String}

/-- What a compound gives an id to is below the node of its object. -/
theorem hasWithin_iff :
    a.toGraph.1.HasWithin idOf? x id
      ↔ ∃ o, a.objects[x]? = some o ∧ id ∈ a.idsWithin idOf? o := by
  simp only [Graph.HasWithin, Arena.node?, Option.bind_eq_some_iff, idsWithin, mem_idsEntered_iff]
  constructor
  · rintro ⟨n, ⟨o, ho, hn⟩, hm⟩
    exact ⟨o, ho, n, hn, hm⟩
  · rintro ⟨o, ho, n, hn, hm⟩
    exact ⟨n, ⟨o, ho, hn⟩, hm⟩

/-- The search finds the first object that gives the id. -/
theorem findIdx?_idsWithin_eq_some_iff :
    (a.objects.findIdx? fun o => id ∈ a.idsWithin idOf? o) = some x
      ↔ Graph.IsFirst (a.toGraph.1.HasWithin idOf? · id) x := by
  simp only [Graph.IsFirst, hasWithin_iff, List.findIdx?_eq_some_iff_getElem, decide_eq_true_eq]
  constructor
  · rintro ⟨hx, hid, hleast⟩
    refine ⟨⟨_, List.getElem?_eq_getElem hx, hid⟩, ?_⟩
    rintro y hyx ⟨o, ho, hid'⟩
    obtain ⟨hy, rfl⟩ := List.getElem?_eq_some_iff.mp ho
    exact hleast y hyx hid'
  · rintro ⟨⟨o, ho, hid⟩, hleast⟩
    obtain ⟨hx, rfl⟩ := List.getElem?_eq_some_iff.mp ho
    exact ⟨hx, hid, fun y hy hy' => hleast y hy ⟨_, List.getElem?_eq_getElem (by omega), hy'⟩⟩

theorem findIdx?_idsWithin_eq_none_iff :
    (a.objects.findIdx? fun o => id ∈ a.idsWithin idOf? o) = none
      ↔ ∀ y, ¬ a.toGraph.1.HasWithin idOf? y id := by
  simp only [hasWithin_iff, List.findIdx?_eq_none_iff, decide_eq_false_iff_not, not_exists, not_and]
  constructor
  · exact fun hnone y o ho => hnone o (List.mem_of_getElem? ho)
  · intro hnone o ho
    obtain ⟨y, hy⟩ := List.mem_iff_getElem?.mp ho
    exact hnone y o hy

theorem lt_length_of_hasWithin (hx : a.toGraph.1.HasWithin idOf? x id) : x < a.objects.length := by
  obtain ⟨o, ho, -⟩ := hasWithin_iff.mp hx
  exact (List.getElem?_eq_some_iff.mp ho).1

/-- An object has an id if the look-up of the id yields it. -/
theorem hasId_iff (hn : (a.objects.map (·.id)).Nodup) :
    a.toGraph.1.HasId x id ↔ a.lookup? id = some x :=
  (lookup?_eq_some_iff hn).symm

theorem forall_not_hasId_iff (hn : (a.objects.map (·.id)).Nodup) :
    (∀ y, ¬ a.toGraph.1.HasId y id) ↔ a.lookup? id = none := by
  simp only [hasId_iff hn, Option.eq_none_iff_forall_ne_some, ne_eq]

/-- **The page of a target is found**, and no other. -/
theorem pageOf?_eq_some_iff (hn : (a.objects.map (·.id)).Nodup) (refid : String) :
    a.toGraph.1.pageOf? refid = some x ↔ a.toGraph.1.IsPageOf refid x := by
  have hpage : a.toGraph.1.pageOf? refid = (a.lookup? (RefId.owner refid)
      <|> a.anchors.contents? refid <|> a.anchors.inline? refid) := rfl
  rw [hpage, contents?_anchors, inline?_anchors, Graph.IsPageOf, forall_not_hasId_iff hn,
    ← findIdx?_idsWithin_eq_none_iff, ← findIdx?_idsWithin_eq_some_iff,
    ← findIdx?_idsWithin_eq_some_iff, hasId_iff hn]
  cases a.lookup? (RefId.owner refid) with
  | some y => simp
  | none =>
    cases a.objects.findIdx? fun o => refid ∈ a.idsWithin Node.contentsId? o <;> simp

/-- There is a page if anything at all has the id. -/
theorem isSome_pageOf?_iff (hn : (a.objects.map (·.id)).Nodup) (refid : String) :
    (∃ x, a.toGraph.1.pageOf? refid = some x)
      ↔ (∃ x, a.toGraph.1.HasId x (RefId.owner refid))
        ∨ (∃ x, a.toGraph.1.HasWithin Node.contentsId? x refid)
        ∨ ∃ x, a.toGraph.1.HasWithin Node.anchorId? x refid := by
  have hpage : a.toGraph.1.pageOf? refid = (a.lookup? (RefId.owner refid)
      <|> a.anchors.contents? refid <|> a.anchors.inline? refid) := rfl
  rw [← not_iff_not, not_or, not_or]
  simp only [not_exists]
  rw [forall_not_hasId_iff hn, ← findIdx?_idsWithin_eq_none_iff, ← findIdx?_idsWithin_eq_none_iff,
    ← contents?_anchors, ← inline?_anchors, ← Option.eq_none_iff_forall_ne_some, hpage]
  cases a.lookup? (RefId.owner refid) <;> cases a.anchors.contents? refid <;> simp

end Arena

/-! ### Links -/

/-- The page that a link leads to: what stands before its first number sign. -/
def linkPage (link : String) : String := String.ofList (link.toList.takeWhile (· ≠ '#'))

/-- The place within the page: what stands behind the first number sign. -/
def linkPlace (link : String) : String :=
  String.ofList ((link.toList.dropWhile (· ≠ '#')).drop 1)

section

variable {permalink fragment : String}

/-- No number sign stands in a path. -/
theorem toList_ne_number_sign (hp : IsPathText permalink) :
    ∀ c ∈ permalink.toList, decide (c ≠ '#') = true := by
  intro c hc
  rw [decide_eq_true_eq]
  rintro rfl
  exact hp.number_sign_not_mem hc

theorem toList_link (permalink fragment : String) :
    s!"{permalink}#{fragment}".toList = permalink.toList ++ '#' :: fragment.toList := by
  have hlink : s!"{permalink}#{fragment}" = permalink ++ "#" ++ fragment := rfl
  rw [hlink]
  simp

/-- **A link is cut where its permalink ends.** -/
theorem linkPage_eq (hp : IsPathText permalink) :
    linkPage s!"{permalink}#{fragment}" = permalink := by
  rw [linkPage, toList_link, List.takeWhile_append_of_pos (toList_ne_number_sign hp)]
  simp

/-- **A link is cut at its first number sign**, which is not one of the fragment. -/
theorem linkPlace_eq (hp : IsPathText permalink) :
    linkPlace s!"{permalink}#{fragment}" = fragment := by
  rw [linkPlace, toList_link, List.dropWhile_append_of_pos (toList_ne_number_sign hp)]
  simp

end

namespace Graph

variable {g : Graph} {refid link : String} {kind : RefKind}

/-- A link to a compound is the permalink of its object. -/
theorem linkTo_compound_eq_ok_iff :
    g.linkTo refid .compound = .ok link ↔ ∃ x, g.lookup? refid = some x ∧ g.permalink x = link := by
  simp only [linkTo, permalinkOf?]
  cases g.lookup? refid <;> simp

/-- Any other link goes to a place in the page of an object. -/
theorem linkTo_eq_ok_iff (hkind : kind ≠ .compound) :
    g.linkTo refid kind = .ok link
      ↔ ∃ x, g.pageOf? refid = some x ∧ link = s!"{g.permalink x}#{RefId.fragment refid}" := by
  cases kind with
  | compound => exact absurd rfl hkind
  | member =>
    simp only [linkTo]
    cases g.pageOf? refid <;> simp [eq_comm]
  | xrefSect =>
    simp only [linkTo]
    cases g.pageOf? refid <;> simp [eq_comm]

theorem isOk_linkTo_iff_pageOf? (hkind : kind ≠ .compound) :
    (∃ link, g.linkTo refid kind = .ok link) ↔ ∃ x, g.pageOf? refid = some x := by
  simp only [linkTo_eq_ok_iff hkind]
  constructor
  · rintro ⟨-, x, hx, -⟩
    exact ⟨x, hx⟩
  · rintro ⟨x, hx⟩
    exact ⟨_, x, hx, rfl⟩

/-- Links of references, and what can be read off them. -/
structure ReferencesDecode (g : Graph) : Prop where
  /-- A reference to a compound leads to the page of the object with its id, if there is one. -/
  page_iff : ∀ refid link, g.linkTo refid .compound = .ok link
    ↔ ∃ x, g.HasId x refid ∧ g.permalink x = link
  /-- Any other reference leads into the page of its target, to the fragment of its id. -/
  place_iff : ∀ refid kind, kind ≠ RefKind.compound → ∀ link, g.linkTo refid kind = .ok link
    ↔ ∃ x, g.IsPageOf refid x ∧ link = s!"{g.permalink x}#{RefId.fragment refid}"
  /-- It does so whenever something has the id, be it an object, an entry of a table of contents or
  an anchor. -/
  isOk_iff : ∀ refid kind, kind ≠ RefKind.compound → ((∃ link, g.linkTo refid kind = .ok link)
    ↔ (∃ x, g.HasId x (RefId.owner refid)) ∨ (∃ x, g.HasWithin Node.contentsId? x refid)
      ∨ ∃ x, g.HasWithin Node.anchorId? x refid)
  number_sign_not_mem : ∀ x, '#' ∉ (g.permalink x).toList
  /-- The parts of a link are the permalink of one page and a place within it. -/
  cut : ∀ refid kind, kind ≠ RefKind.compound → ∀ link, g.linkTo refid kind = .ok link →
    ∃ x, g.IsPageOf refid x ∧ g.holder? (linkPage link) = some x
      ∧ linkPlace link = RefId.fragment refid
  /-- Among ids that begin with that of an object, no two have the same link. -/
  injective : ∀ refid refid' kind kind', kind ≠ RefKind.compound → kind' ≠ RefKind.compound →
    RefId.delimiter <:+: refid.toList → RefId.delimiter <:+: refid'.toList →
    (∃ x, g.HasId x (RefId.owner refid)) → (∃ x, g.HasId x (RefId.owner refid')) →
    g.linkTo refid kind = g.linkTo refid' kind' → refid = refid'

end Graph

namespace Arena

/-- The object with the id that a reference begins with has the target in its page. -/
theorem owner_eq_of_isPageOf {a : Arena} (hn : (a.objects.map (·.id)).Nodup) {refid : String}
    {x y : Nat} (hx : a.toGraph.1.HasId x (RefId.owner refid))
    (hy : a.toGraph.1.IsPageOf refid y) : y = x := by
  rcases hy with hy | ⟨hnone, -⟩
  · rw [hasId_iff hn] at hx hy
    exact Option.some.inj (hy.symm.trans hx)
  · exact absurd hx (hnone x)

theorem lt_length_of_isPageOf {a : Arena} {refid : String} {x : Nat}
    (hx : a.toGraph.1.IsPageOf refid x) : x < a.objects.length := by
  rcases hx with ⟨o, ho, -⟩ | ⟨-, hx | hx⟩
  · exact (List.getElem?_eq_some_iff.mp ho).1
  · exact lt_length_of_hasWithin hx.1
  · exact lt_length_of_hasWithin hx.2.1

/-- A permalink belongs to the object that has it. -/
theorem holder?_permalink {a : Arena} {x : Nat} (hx : x < a.objects.length) :
    a.toGraph.1.holder? (a.toGraph.1.permalink x) = some x := by
  rw [Graph.holder?, Permalinks.owner?_eq_some_iff a.nodup_permalinks]
  exact mem_permalinks_iff.mpr ⟨hx, rfl⟩

/-- **Links decode**, in the graph of any document. -/
theorem references_decode (style : PermalinkStyle) (d : Document) :
    (ofDocument style d).1.toGraph.1.ReferencesDecode := by
  have ha := ofDocument_isWrapped style d
  have hn := nodup_ids_ofDocument style d
  generalize (ofDocument style d).1 = a at ha hn
  have hplace : ∀ refid kind, kind ≠ RefKind.compound → ∀ link,
      a.toGraph.1.linkTo refid kind = .ok link ↔ ∃ x, a.toGraph.1.IsPageOf refid x
        ∧ link = s!"{a.toGraph.1.permalink x}#{RefId.fragment refid}" := by
    intro refid kind hkind link
    rw [Graph.linkTo_eq_ok_iff hkind]
    simp only [pageOf?_eq_some_iff hn]
  have hcut : ∀ refid kind, kind ≠ RefKind.compound → ∀ link,
      a.toGraph.1.linkTo refid kind = .ok link → ∃ x, a.toGraph.1.IsPageOf refid x
        ∧ a.toGraph.1.holder? (linkPage link) = some x
        ∧ linkPlace link = RefId.fragment refid := by
    intro refid kind hkind link hlink
    obtain ⟨x, hx, rfl⟩ := (hplace refid kind hkind link).mp hlink
    have hpath := isPathText_permalink ha x
    refine ⟨x, hx, ?_, linkPlace_eq hpath⟩
    rw [linkPage_eq hpath]
    exact holder?_permalink (lt_length_of_isPageOf hx)
  constructor
  case page_iff =>
    intro refid link
    rw [Graph.linkTo_compound_eq_ok_iff]
    simp only [hasId_iff hn]
    rfl
  case place_iff => exact hplace
  case isOk_iff =>
    intro refid kind hkind
    rw [← isSome_pageOf?_iff hn]
    exact Graph.isOk_linkTo_iff_pageOf? hkind
  case number_sign_not_mem => exact fun x => (isPathText_permalink ha x).number_sign_not_mem
  case cut => exact hcut
  case injective =>
    rintro refid refid' kind kind' hkind hkind' hid hid' ⟨x, hx⟩ ⟨x', hx'⟩ heq
    -- both links are there, so they are one link, whose parts are those of both ids
    obtain ⟨link, hlink⟩ : ∃ link, a.toGraph.1.linkTo refid kind = .ok link :=
      ⟨_, (hplace refid kind hkind _).mpr ⟨x, Or.inl hx, rfl⟩⟩
    obtain ⟨y, hy, hholder, hfragment⟩ := hcut refid kind hkind link hlink
    obtain ⟨y', hy', hholder', hfragment'⟩ := hcut refid' kind' hkind' link (heq ▸ hlink)
    obtain rfl : y = y' := Option.some.inj (hholder.symm.trans hholder')
    obtain rfl := owner_eq_of_isPageOf hn hx hy
    obtain rfl := owner_eq_of_isPageOf hn hx' hy'
    obtain ⟨o, ho, howner⟩ := hx
    obtain ⟨o', ho', howner'⟩ := hx'
    obtain rfl := Option.some.inj (ho.symm.trans ho')
    exact RefId.eq_of_owner_eq_of_fragment_eq hid hid' (howner.symm.trans howner')
      (hfragment.symm.trans hfragment')

end Arena

end DocGraph
