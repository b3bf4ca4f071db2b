import DocGraph.Proofs.Demands
import DocGraph.Proofs.Making
import DocGraph.Proofs.Outline
import Mathlib.Data.List.Forall2

namespace DocGraph

/-!
# The grammar of compounds

Building checks an element in a certain order, and some of it on the nodes already made.  What it
accepts can be said of elements alone, one by one and in no order:

* `Form.Permits`, `Form.Closing.Holds`, `Form.Fits` — what a form asks of an element, of its
  attributes, its character data and its children;
* `Form.Within`, `Form.Conforms` — the elements of a tree, each with the form that is given to it
  where it stands, and a tree all of which fits.

Building goes through a content piece by piece, and asks of each child what came before it:

* `Form.isOk_buildContent_iff`, `Form.becomes_of_buildContent` — when a content is built, and from
  what;
* `Form.occurOnce_iff` — each child is the first of its kind if its tag occurs once;
* `Form.alternate_iff` — each term and definition comes when it is its turn if they alternate.
-/

namespace Form

/-! ### What a form asks -/

/-- Whether a child with this tag may stand in an element with this form.  In running text that is
any markup, and of the tags that the schema does not list those of characters. -/
def Permits (f : Form) (tag : String) : Prop :=
  ∃ slot, f.slot? tag = some slot ∧ slot.form ≠ .misplaced
    ∧ (slot.form = .entity → (characterEntity? tag).isSome = true)

/-- Terms and definitions in turn, as many of the ones as of the others. -/
def Alternate : List String → Prop
  | [] => True
  | [_] => False
  | first :: second :: rest =>
    first = NodeKind.varListEntry.tag ∧ second = NodeKind.listItem.tag ∧ Alternate rest

/-- Whether the children of an element satisfy a closing condition. -/
def Closing.Holds (e : Element) : Closing → Prop
  | .present tag => ∃ c ∈ e.children, c.name = tag
  | .told tag => ∃ c, e.firstChild? tag = some c ∧ isBlankText c.text = false
  | .named =>
    ∃ c, (e.children.filter (·.name == NodeKind.name.tag)).getLast? = some c
      ∧ isBlankText c.text = false
  | .worded => isBlankText e.text = false
  | .paired => Alternate (e.children.map (·.name))
  | .flagged name => Demand.flag.Admits (e.attribute? name)

/-- **An element fits a form.**  Nothing is asked of its children but their tags, and the text of
those that tell something. -/
structure Fits (f : Form) (e : Element) : Prop where
  /-- There are no attributes but those of the form. -/
  names : ∀ a ∈ e.attributes, ∃ r ∈ f.attributes, r.name = a.name
  /-- The values of attributes, or their absence, are what the form demands. -/
  values : ∀ r ∈ f.attributes, r.demand.Admits (e.attribute? r.name)
  /-- Where only elements may stand, character data is indentation. -/
  texts : f.model = .elements → ∀ s, .text s ∈ e.content → isBlankText s = true
  /-- Children may stand here. -/
  children : ∀ c ∈ e.children, f.Permits c.name
  /-- What may occur once does not occur twice. -/
  once : ∀ tag slot, f.slot? tag = some slot → slot.once = true →
    e.children.countP (·.name == tag) ≤ 1
  /-- What has to be there is there. -/
  closed : ∀ c ∈ f.closings, c.Holds e

/-- The elements of a tree, each with the form that it is given by its tag within the form of its
parent. -/
inductive Within : Form → Element → Form → Element → Prop
  | self (f : Form) (e : Element) : Within f e f e
  | child {f g : Form} {e c d : Element} {slot : Slot} :
    c ∈ e.children → f.slot? c.name = some slot → Within slot.form c g d → Within f e g d

/-- Every element of a tree fits the form that it is given. -/
def Conforms (f : Form) (e : Element) : Prop := ∀ g d, Within f e g d → g.Fits d

variable {f : Form} {e : Element} {name s tag : String} {before : List NodeKind}
variable {pieces : List (Content Element)} {content : List (Content Node)} {n : Node} {slot : Slot}

/-- An element conforms if it fits and each child conforms in its place. -/
theorem conforms_iff :
    f.Conforms e ↔ f.Fits e
      ∧ ∀ c ∈ e.children, ∀ slot, f.slot? c.name = some slot → slot.form.Conforms c := by
  refine ⟨fun h => ⟨h f e (.self f e), fun c hc slot hslot g d hd =>
    h g d (.child hc hslot hd)⟩, ?_⟩
  rintro ⟨hself, hbelow⟩ g d hd
  cases hd with
  | self => exact hself
  | child hc hslot hd => exact hbelow _ hc _ hslot g d hd

/-! ### Content, piece by piece -/

/-- After children of the kinds `before`, each child is the first of its kind or may occur again. -/
def OccurOnce (f : Form) (before : List NodeKind) : List Element → Prop
  | [] => True
  | c :: rest =>
    (∀ slot, f.slot? c.name = some slot → slot.once = true → kindOf c.name ∉ before)
      ∧ f.OccurOnce (kindOf c.name :: before) rest

/-- After children of the kinds `before`, each term or definition comes when it is its turn. -/
def TakeTurns (before : List NodeKind) : List Element → Prop
  | [] => True
  | c :: rest =>
    ((c.name = NodeKind.varListEntry.tag → before.head? ≠ some .varListEntry)
      ∧ (c.name = NodeKind.listItem.tag → before.head? = some .varListEntry))
      ∧ TakeTurns (kindOf c.name :: before) rest

/-- A child and its node. -/
def Becomes (f : Form) (c : Element) (n : Node) : Prop :=
  ∃ slot, f.slot? c.name = some slot ∧ slot.form.build c = .ok n

/-- A child becomes a node of the kind that its tag tells. -/
theorem Becomes.kind_eq {c : Element} (h : f.Becomes c n) : n.kind = kindOf c.name := by
  -- the form of the slot built the node, and takes its kind from the tag
  obtain ⟨slot, -, hn⟩ := h
  exact kind_of_build hn

/-- Character data is refused only where nothing but elements may stand, and only if it is more than
blanks. -/
theorem isOk_keeps_iff {m : ContentModel} :
    (∃ kept, m.keeps s = .ok kept) ↔ (m = .elements → isBlankText s = true) := by
  cases m with
  | elements => by_cases hs : isBlankText s = true <;> simp [ContentModel.keeps, hs]
  | mixed => simp [ContentModel.keeps]
  | verbatim => simp [ContentModel.keeps, em]
  | indented => simp [ContentModel.keeps]

/-- **Character data is no obstacle** if it may stand here. -/
theorem isOk_buildContent_text_iff :
    (∃ content, f.buildContent name before (.text s :: pieces) = .ok content)
      ↔ (f.model = .elements → isBlankText s = true)
        ∧ ∃ content, f.buildContent name before pieces = .ok content := by
  rw [← isOk_keeps_iff]
  constructor
  · rintro ⟨content, hcontent⟩
    obtain ⟨kept, others, hkept, hothers, -⟩ := buildContent_text_eq_ok_iff.mp hcontent
    exact ⟨⟨kept, hkept⟩, others, hothers⟩
  · rintro ⟨⟨kept, hkept⟩, others, hothers⟩
    exact ⟨_, buildContent_text_eq_ok_iff.mpr ⟨kept, others, hkept, hothers, rfl⟩⟩

/-- **A child is no obstacle** if it becomes a node, does not come again where it may not and, in a
variable list, comes when it is its turn. -/
theorem isOk_buildContent_child_iff {c : Element} :
    (∃ content, f.buildContent name before (.child c :: pieces) = .ok content)
      ↔ (∃ n, f.Becomes c n)
        ∧ (∀ slot, f.slot? c.name = some slot → slot.once = true → kindOf c.name ∉ before)
        ∧ (f = .variableList →
          (c.name = NodeKind.varListEntry.tag → before.head? ≠ some .varListEntry)
            ∧ (c.name = NodeKind.listItem.tag → before.head? = some .varListEntry))
        ∧ ∃ content, f.buildContent name (kindOf c.name :: before) pieces = .ok content := by
  constructor
  · rintro ⟨content, hcontent⟩
    obtain ⟨slot, n, others, hplace, hn, honce, hothers, -⟩ :=
      buildContent_child_eq_ok_iff.mp hcontent
    obtain ⟨hslot, hturn⟩ := place_eq_ok_iff.mp hplace
    -- what is built of the child is not needed, only its kind, and that is known from its name
    rw [kind_of_build hn] at honce hothers
    refine ⟨⟨n, slot, hslot, hn⟩, ?_, hturn, others, hothers⟩
    intro slot' hslot' honce'
    obtain rfl : slot = slot' := Option.some.inj (hslot.symm.trans hslot')
    exact honce honce'
  · rintro ⟨⟨n, slot, hslot, hn⟩, honce, hturn, others, hothers⟩
    have hplace : f.place before c.name = .ok slot := place_eq_ok_iff.mpr ⟨hslot, hturn⟩
    have honce := honce slot hslot
    rw [← kind_of_build hn] at honce hothers
    exact ⟨_, buildContent_child_eq_ok_iff.mpr ⟨slot, n, others, hplace, hn, honce, hothers, rfl⟩⟩

/-- **A content is built** if its character data may be kept, its children become nodes, and each of
them may stand after those before it. -/
theorem isOk_buildContent_iff :
    (∃ content, f.buildContent name before pieces = .ok content)
      ↔ (f.model = .elements → ∀ s, .text s ∈ pieces → isBlankText s = true)
        ∧ (∀ c ∈ Content.children pieces, ∃ n, f.Becomes c n)
        ∧ f.OccurOnce before (Content.children pieces)
        ∧ (f = .variableList → TakeTurns before (Content.children pieces)) := by
  induction pieces generalizing before with
  | nil => simp [Content.children, OccurOnce, TakeTurns]
  | cons piece rest ih =>
    -- A text is judged alone and a child by the kinds before it; the rest is judged likewise.
    cases piece with
    | text s =>
      have htexts : (∀ t, Content.text t ∈ .text s :: rest → isBlankText t = true)
          ↔ isBlankText s = true ∧ ∀ t, .text t ∈ rest → isBlankText t = true := by
        simp [or_imp, forall_and]
      rw [isOk_buildContent_text_iff, ih, Content.children_cons_text, htexts, imp_and, and_assoc]
    | child c =>
      have htexts : (∀ t, Content.text t ∈ .child c :: rest → isBlankText t = true)
          ↔ ∀ t, .text t ∈ rest → isBlankText t = true := by
        simp
      rw [isOk_buildContent_child_iff, ih, Content.children_cons_child, htexts,
        List.forall_mem_cons, OccurOnce, TakeTurns]
      constructor
      · rintro ⟨hn, honce, hturn, hmodel, hbelow, honces, hturns⟩
        exact ⟨hmodel, ⟨hn, hbelow⟩, ⟨honce, honces⟩, fun hf => ⟨hturn hf, hturns hf⟩⟩
      · rintro ⟨hmodel, ⟨hn, hbelow⟩, ⟨honce, honces⟩, hturns⟩
        exact ⟨hn, honce, fun hf => (hturns hf).1, hmodel, hbelow, honces, fun hf => (hturns hf).2⟩

/-- The nodes of a content are those of its children, in order. -/
theorem becomes_of_buildContent (hcontent : f.buildContent name before pieces = .ok content) :
    List.Forall₂ f.Becomes (Content.children pieces) (Content.children content) := by
  induction pieces generalizing before content with
  | nil =>
    rw [buildContent_nil] at hcontent
    obtain rfl := Except.ok.inj hcontent
    exact .nil
  | cons piece rest ih =>
    cases piece with
    | text s =>
      obtain ⟨kept, others, -, hothers, rfl⟩ := buildContent_text_eq_ok_iff.mp hcontent
      -- text joins the content or is dropped, and leaves the children as they are
      have hchildren : Content.children (if kept then Content.consText s others else others)
          = Content.children others := by
        cases kept
        · rfl
        · exact Content.children_consText s others
      rw [hchildren]
      exact ih hothers
    | child c =>
      obtain ⟨slot, n, others, hplace, hn, -, hothers, rfl⟩ :=
        buildContent_child_eq_ok_iff.mp hcontent
      exact .cons ⟨slot, (place_eq_ok_iff.mp hplace).1, hn⟩ (ih hothers)

/-! ### What may occur once -/

/-- Tags of one kind are the same. -/
theorem eq_of_kindOf_eq {tag' : String} (htag : kindOf tag ≠ .entity)
    (heq : kindOf tag' = kindOf tag) : tag' = tag :=
  calc tag' = (kindOf tag').tag := (tag_kindOf (heq ▸ htag)).symm
    _ = (kindOf tag).tag := by rw [heq]
    _ = tag := tag_kindOf htag

/-- **Each child is the first of its kind**, where it has to be, if no tag that may occur once
occurs twice or again. -/
theorem occurOnce_iff {children : List Element} :
    f.OccurOnce before children ↔ ∀ tag slot, f.slot? tag = some slot → slot.once = true →
      children.countP (·.name == tag) ≤ 1
        ∧ (kindOf tag ∈ before → children.countP (·.name == tag) = 0) := by
  induction children generalizing before with
  | nil => simp [OccurOnce]
  | cons c rest ih =>
    -- The first child counts for its own tag only.
    have hhead : ∀ {tag : String}, c.name = tag →
        (c :: rest).countP (·.name == tag) = rest.countP (·.name == tag) + 1 := by
      intro tag hname
      rw [List.countP_cons, if_pos (beq_iff_eq.mpr hname)]
    have htail : ∀ {tag : String}, c.name ≠ tag →
        (c :: rest).countP (·.name == tag) = rest.countP (·.name == tag) := by
      intro tag hname
      rw [List.countP_cons, if_neg (by simpa using hname), Nat.add_zero]
    rw [OccurOnce, ih]
    constructor
    · rintro ⟨hfirst, hrest⟩ tag slot hslot honce
      obtain ⟨hone, hagain⟩ := hrest tag slot hslot honce
      by_cases hname : c.name = tag
      -- its kind is among those met from now on, so no other of the name follows
      · have hnone := hagain (List.mem_cons.mpr (.inl (hname ▸ rfl)))
        rw [hhead hname, hnone]
        refine ⟨Nat.le_refl 1, fun hmem => ?_⟩
        exact absurd (hname ▸ hmem) (hfirst slot (hname ▸ hslot) honce)
      · rw [htail hname]
        exact ⟨hone, fun hmem => hagain (List.mem_cons_of_mem _ hmem)⟩
    · intro h
      refine ⟨fun slot hslot honce hmem => ?_, fun tag slot hslot honce => ?_⟩
      · have hnone := (h c.name slot hslot honce).2 hmem
        rw [hhead rfl] at hnone
        omega
      · obtain ⟨hone, hagain⟩ := h tag slot hslot honce
        by_cases hname : c.name = tag
        · rw [hhead hname] at hone
          exact ⟨by omega, fun _ => by omega⟩
        · rw [htail hname] at hone hagain
          refine ⟨hone, fun hmem => ?_⟩
          -- slots for one child tell their tags apart by kind
          rcases List.mem_cons.mp hmem with heq | hmem
          · exact absurd (eq_of_kindOf_eq (kindOf_ne_entity_of_once hslot honce) heq.symm) hname
          · exact hagain hmem

/-! ### Variable lists -/

theorem kindOf_term : kindOf NodeKind.varListEntry.tag = .varListEntry := kindOf_tag (by decide)

theorem kindOf_definition : kindOf NodeKind.listItem.tag = .listItem := kindOf_tag (by decide)

/-- Where no term is pending, two children come when it is their turn if they are a term and its
definition. -/
theorem takeTurns_cons_cons {c d : Element} {rest : List Element}
    (hc : c.name = NodeKind.varListEntry.tag ∨ c.name = NodeKind.listItem.tag)
    (hd : d.name = NodeKind.varListEntry.tag ∨ d.name = NodeKind.listItem.tag)
    (hbefore : before.head? ≠ some .varListEntry) :
    TakeTurns before (c :: d :: rest)
      ↔ c.name = NodeKind.varListEntry.tag ∧ d.name = NodeKind.listItem.tag
        ∧ TakeTurns (.listItem :: .varListEntry :: before) rest := by
  rw [TakeTurns, TakeTurns]
  constructor
  · rintro ⟨⟨-, hcturn⟩, ⟨hdturn, -⟩, hturns⟩
    -- no term is pending, so the first is a term; then one is, so the second is a definition
    have hcname := hc.resolve_right fun h => hbefore (hcturn h)
    rw [hcname, kindOf_term] at hdturn hturns
    have hdname := hd.resolve_left fun h => hdturn h rfl
    rw [hdname, kindOf_definition] at hturns
    exact ⟨hcname, hdname, hturns⟩
  · rintro ⟨hcname, hdname, hturns⟩
    have hne : NodeKind.varListEntry.tag ≠ NodeKind.listItem.tag := by decide
    rw [hcname, hdname, kindOf_term, kindOf_definition]
    exact ⟨⟨fun _ => hbefore, fun h => absurd h hne⟩, ⟨fun h => absurd h.symm hne, fun _ => rfl⟩,
      hturns⟩

/-- A definition at the end leaves no term pending. -/
theorem getLast?_cons_cons_of_definition {c d : Element} {rest : List Element}
    (hd : d.name = NodeKind.listItem.tag) :
    (c :: d :: rest).getLast?.map (kindOf ·.name) = some .varListEntry
      ↔ rest.getLast?.map (kindOf ·.name) = some .varListEntry := by
  rw [List.getLast?_cons_cons, List.getLast?_cons]
  cases rest.getLast? with
  | none => simp [hd, kindOf_definition]
  | some x => rfl

/-- **Terms and definitions alternate** if each comes when it is its turn and the last term has a
definition. -/
theorem alternate_iff : ∀ {children : List Element} {before : List NodeKind},
    (∀ c ∈ children, c.name = NodeKind.varListEntry.tag ∨ c.name = NodeKind.listItem.tag) →
    before.head? ≠ some .varListEntry →
    (TakeTurns before children
        ∧ children.getLast?.map (kindOf ·.name) ≠ some .varListEntry
      ↔ Alternate (children.map (·.name)))
  | [], _, _, _ => by simp [TakeTurns, Alternate]
  | [c], before, hnames, hbefore => by
    have hlast : [c].getLast?.map (kindOf ·.name) = some (kindOf c.name) := rfl
    rw [TakeTurns, hlast, List.map_singleton, Alternate, iff_false]
    rintro ⟨⟨⟨-, hdefinition⟩, -⟩, hterm⟩
    rcases hnames c List.mem_cons_self with hname | hname
    · rw [hname, kindOf_term] at hterm
      exact hterm rfl
    · exact hbefore (hdefinition hname)
  | c :: d :: rest, before, hnames, hbefore => by
    obtain ⟨hc, hnames⟩ := List.forall_mem_cons.mp hnames
    obtain ⟨hd, hrest⟩ := List.forall_mem_cons.mp hnames
    -- After a definition it is the turn of a term, as at the beginning.
    have hnext : (NodeKind.listItem :: .varListEntry :: before).head? ≠ some .varListEntry := by
      simp
    rw [takeTurns_cons_cons hc hd hbefore, List.map_cons, List.map_cons, Alternate,
      ← alternate_iff hrest hnext, and_assoc, and_assoc]
    refine and_congr_right fun _ => and_congr_right fun hname => and_congr_right fun _ => ?_
    exact not_congr (getLast?_cons_cons_of_definition hname)

end Form

end DocGraph
