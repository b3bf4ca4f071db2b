import DocGraph.Proofs.Acceptance
import DocGraph.Proofs.Coherence

namespace DocGraph

/-!
# Mandatory values

Ids, targets of references and names serve as keys later on, and nobody asks again whether they are
there.  Every node of a compound has all that is mandatory:

* `NodeData.Filled` — the values that data of each sort has to give;
* `NodeKind.admits`, `NodeKind.mandatoryChild?` — the sort of data, and the child, without which
  there is no node of a kind;
* `Node.Complete` — nothing mandatory is absent, empty or blank, in the data of a node and in what
  it holds of its children (`NodeData.held`);
* `Form.Preserved.forall_entered` — what every form sees to in its own nodes holds of all nodes;
* `provided_node` — every form sees to the values and the children of its nodes;
* `complete_buildCompound` — the main statement: all nodes of a compound are complete.
-/

/-! ### What is mandatory -/

/-- The values that data of each sort has to give.  Names and references of entries are texts of
child elements, which may not be blank either. -/
def NodeData.Filled : NodeData → Prop
  | .compound d => d.id ≠ "" ∧ d.kind ≠ "" ∧ isBlankText d.name = false
  | .inner d => d.refid ≠ ""
  | .graphNode id => id ≠ ""
  | .graphLink refid _ => refid ≠ ""
  | .childNode refid relation => refid ≠ "" ∧ relation ≠ ""
  | .sectionDef d => d.kind ≠ ""
  | .memberRef d => d.refid ≠ "" ∧ isBlankText d.name = false
  | .member d => d.id ≠ "" ∧ d.kind ≠ "" ∧ d.protection ≠ "" ∧ isBlankText d.name = false
  | .enumValue d => d.id ≠ "" ∧ d.protection ≠ "" ∧ isBlankText d.name = false
  | .reimplement d => d.refid ≠ ""
  | .memberUse d => d.refid ≠ ""
  | .location d => d.file ≠ ""
  | .tocSect _ reference => isBlankText reference = false
  | .ref d => d.refid ≠ ""
  | .anchor id => id ≠ ""
  | .formula id => id ≠ ""
  | .ulink url => url ≠ ""
  | .tocItem id => id ≠ ""
  | .xrefSect id _ => id ≠ ""
  | _ => True

/-- The data that a node holds of its children, apart from their places and texts. -/
def NodeData.held : NodeData → List NodeData
  | .compound d => d.inner.map .inner ++ (d.location.map .location).toList
  | .member d =>
    d.reimplements.map .reimplement ++ d.reimplementedBy.map .reimplement
      ++ (d.location.map .location).toList
  | _ => []

namespace NodeKind

/-- Whether there are mandatory values in the data of the nodes of a kind. -/
def demandsValues : NodeKind → Bool
  | .compoundDef | .innerModule | .innerDir | .innerFile | .innerClass | .innerConcept
  | .innerNamespace | .innerPage | .innerGroup | .graphNode | .link | .childNode | .sectionDef
  | .member | .memberDef | .enumValue | .reimplements | .reimplementedBy | .references
  | .referencedBy | .location | .tocSect | .ref | .anchor | .formula | .ulink | .tocItem
  | .xrefSect => true
  | _ => false

/-- Whether data is of the sort that goes with a kind. -/
def admits (kind : NodeKind) (data : NodeData) : Bool :=
  match kind with
  | .compoundDef => (data matches .compound _)
  | .innerModule | .innerDir | .innerFile | .innerClass | .innerConcept | .innerNamespace
  | .innerPage | .innerGroup => (data matches .inner _)
  | .graphNode => (data matches .graphNode _)
  | .link => (data matches .graphLink _ _)
  | .childNode => (data matches .childNode _ _)
  | .sectionDef => (data matches .sectionDef _)
  | .member => (data matches .memberRef _)
  | .memberDef => (data matches .member _)
  | .enumValue => (data matches .enumValue _)
  | .reimplements | .reimplementedBy => (data matches .reimplement _)
  | .references | .referencedBy => (data matches .memberUse _)
  | .location => (data matches .location _)
  | .tocSect => (data matches .tocSect _ _)
  | .ref => (data matches .ref _)
  | .anchor => (data matches .anchor _)
  | .formula => (data matches .formula _)
  | .ulink => (data matches .ulink _)
  | .tocItem => (data matches .tocItem _)
  | .xrefSect => (data matches .xrefSect _ _)
  | _ => true

/-- The kind of child that a node has to have, and to have once. -/
def mandatoryChild? : NodeKind → Option NodeKind
  | .parameterItem => some .parameterDescription
  | .xrefSect => some .xrefDescription
  | .graphNode => some .label
  | _ => none

/-- A kind that demands no values goes with data of any sort. -/
theorem admits_of_demandsValues_eq_false {kind : NodeKind} (hkind : kind.demandsValues = false)
    (data : NodeData) : kind.admits data = true := by
  unfold admits
  split <;> first | rfl | cases hkind

end NodeKind

/-- What a form sees to in a node: its own values, and its mandatory child. -/
structure Node.Provided (n : Node) : Prop where
  admitted : n.kind.admits n.data = true
  filled : n.data.Filled
  child : ∀ kind, n.kind.mandatoryChild? = some kind → ∃ m, n.childrenOf kind = [m]

/-- Nothing mandatory is absent from a node, in whichever place it is held. -/
structure Node.Complete (n : Node) : Prop extends n.Provided where
  held : ∀ data ∈ n.data.held, data.Filled

/-! ### All nodes -/

/-- **What every form sees to in its own nodes** holds of all nodes below, if it holds of pairs.
The form may rely on what is preserved of the content. -/
theorem Form.Preserved.forall_entered {P : Form → Element → Node → Prop}
    {Q : Form → List NodeKind → List (Content Element) → List (Content Node) → Prop}
    (h : Form.Preserved P Q) {R : Node → Prop}
    (hpair : ∀ term definition, R (.pair term definition))
    (hnode : ∀ f e content, Form.kindOf e.name ∈ f.kinds → f.checkAttributes e = .ok () →
      f.checkClosing e content = .ok () → Q f [] e.content content → R (f.node e content)) :
    Form.Preserved (fun f e n => P f e n ∧ ∀ m ∈ n.entered fun _ => false, R m)
      fun f before pieces content => Q f before pieces content
        ∧ ∀ c ∈ Content.children content, ∀ m ∈ c.entered fun _ => false, R m := by
  constructor
  case node =>
    rintro f e content hkind hrefuses hattributes hclosing ⟨hcontent, hbelow⟩
    -- What holds of the content gives `R` of the node; below it, `R` is known already.
    refine ⟨h.node f e content hkind hrefuses hattributes hclosing hcontent, ?_⟩
    intro m hm
    rcases Node.mem_entered_iff.mp hm with rfl | ⟨-, c, hc, hm⟩
    · exact hnode f e content hkind hattributes hclosing hcontent
    · exact Form.forall_arrange hpair hbelow c hc m hm
  case nil =>
    intro f before
    exact ⟨h.nil f before, fun c hc => absurd hc List.not_mem_nil⟩
  case text =>
    rintro f before s kept rest others hkept ⟨hothers, hbelow⟩
    refine ⟨h.text f before s kept rest others hkept hothers, ?_⟩
    cases kept with
    | false => exact hbelow
    | true =>
      rw [if_pos rfl, Content.children_consText]
      exact hbelow
  case child =>
    rintro f before e rest slot n others hplace ⟨hn, hentered⟩ honce ⟨hothers, hbelow⟩
    refine ⟨h.child f before e rest slot n others hplace hn honce hothers, ?_⟩
    exact List.forall_mem_cons.mpr ⟨hentered, hbelow⟩

/-! ### Values that a form demands -/

section

variable {f : Form} {e : Element} {content : List (Content Node)} {kind : NodeKind} {name : String}

/-- An attribute that has to be filled has a value. -/
theorem value_ne_empty (hattributes : f.checkAttributes e = .ok ())
    (hrule : Form.filled name ∈ f.attributes) : e.value name ≠ "" := by
  obtain ⟨s, hs, hne⟩ := (Form.checkAttributes_eq_ok_iff.mp hattributes).2 _ hrule
  have hvalue : e.attribute? name = some s := hs
  rw [Element.value, hvalue]
  exact hne

/-- A name that is asked for is not blank. -/
theorem isBlankText_of_named (hclosed : .named ∈ f.closings)
    (hclosing : f.checkClosing e content = .ok ()) :
    isBlankText ((lastText? .name content).getD "") = false := by
  have hnamed := Form.checkClosing_eq_ok_iff.mp hclosing .named hclosed
  rw [Form.Closing.check] at hnamed
  split at hnamed
  · cases hnamed
  · rename_i hblank
    exact Bool.not_eq_true _ ▸ hblank

/-- Nor is the text of a child that is asked for. -/
theorem isBlankText_of_told (hkind : kind ∈ NodeKind.tagged) (hclosed : .told kind.tag ∈ f.closings)
    (hclosing : f.checkClosing e content = .ok ()) :
    isBlankText ((firstText? kind content).getD "") = false := by
  have htold := Form.checkClosing_eq_ok_iff.mp hclosing (.told kind.tag) hclosed
  rw [Form.Closing.check, Form.kindOf_tag hkind] at htold
  cases hfirst : firstText? kind content with
  | none => simp [hfirst] at htold
  | some text =>
    by_cases hblank : isBlankText text = true
    · simp [hfirst, hblank] at htold
    · simpa using hblank

/-- A child that has to be there and may not recur is there once. -/
theorem ContentFits.exists_only (h : ContentFits f [] content) (honce : f.allowsOnce kind = true)
    (hkind : kind ∈ NodeKind.tagged) (hclosed : .present kind.tag ∈ f.closings)
    (hclosing : f.checkClosing e content = .ok ()) : ∃ m, ofKind kind content = [m] := by
  have hpresent := Form.checkClosing_eq_ok_iff.mp hclosing (.present kind.tag) hclosed
  have hfew := (h.once kind honce).1
  rw [Form.Closing.check, Form.kindOf_tag hkind] at hpresent
  cases hchildren : ofKind kind content with
  | nil => simp [hchildren] at hpresent
  | cons m others =>
    have hothers : others = [] := by simpa [hchildren] using hfew
    exact ⟨m, by rw [hothers]⟩

end

/-! ### Nodes -/

section

variable {f : Form} {e : Element} {content : List (Content Node)}

/-- A node of a kind without a mandatory child provides its values. -/
theorem provided_of_kinds
    (hkinds : ∀ kind ∈ f.kinds,
      kind.admits (f.dataOf e content) = true ∧ kind.mandatoryChild? = none)
    (hkind : Form.kindOf e.name ∈ f.kinds) (hfilled : (f.dataOf e content).Filled) :
    (f.node e content).Provided := by
  obtain ⟨hadmitted, hchild⟩ := hkinds _ hkind
  constructor
  case admitted => exact hadmitted
  case filled => exact hfilled
  case child =>
    intro kind hmandatory
    exact absurd (hchild.symm.trans hmandatory) (by simp)

theorem provided_of_kind {kind : NodeKind} (hf : f.kinds = [kind])
    (hadmitted : kind.admits (f.dataOf e content) = true) (hchild : kind.mandatoryChild? = none)
    (hkind : Form.kindOf e.name ∈ f.kinds) (hfilled : (f.dataOf e content).Filled) :
    (f.node e content).Provided := by
  refine provided_of_kinds ?_ hkind hfilled
  rw [hf, List.forall_mem_singleton]
  exact ⟨hadmitted, hchild⟩

/-- Where nothing is mandatory, everything is there. -/
theorem provided_of_silent
    (hsilent : ∀ kind ∈ f.kinds, kind.demandsValues = false ∧ kind.mandatoryChild? = none)
    (hkind : Form.kindOf e.name ∈ f.kinds) (hfilled : (f.dataOf e content).Filled) :
    (f.node e content).Provided := by
  refine provided_of_kinds (fun kind hk => ?_) hkind hfilled
  obtain ⟨hdemands, hchild⟩ := hsilent kind hk
  exact ⟨NodeKind.admits_of_demandsValues_eq_false hdemands _, hchild⟩

/-- A node with a mandatory child provides its values and the child. -/
theorem provided_of_child {kind child : NodeKind} (hkind : Form.kindOf e.name ∈ [kind])
    (hadmitted : kind.admits (f.dataOf e content) = true)
    (hchild : kind.mandatoryChild? = some child) (hfilled : (f.dataOf e content).Filled)
    (honly : ∃ m, (f.node e content).childrenOf child = [m]) : (f.node e content).Provided := by
  obtain rfl := List.mem_singleton.mp hkind
  constructor
  case admitted => exact hadmitted
  case filled => exact hfilled
  case child =>
    intro kind hmandatory
    obtain rfl := Option.some.inj (hchild.symm.trans hmandatory)
    exact honly

/-- A reference to a nested compound has a target, and its tag tells what is nested. -/
theorem provided_innerRef (hkind : Form.kindOf e.name ∈ Form.innerRef.kinds)
    (hattributes : Form.innerRef.checkAttributes e = .ok ()) :
    (Form.innerRef.node e content).Provided := by
  obtain ⟨d, hdata, hrefid⟩ := exists_dataOf_innerRef hkind content
  apply provided_of_kinds
  · rw [hdata]
    simp [Form.kinds, NodeKind.admits, NodeKind.mandatoryChild?]
  · exact hkind
  · rw [hdata]
    show d.refid ≠ ""
    rw [hrefid]
    exact value_ne_empty hattributes (by decide)

/-- A reference has to name its kind, so there is data. -/
theorem provided_ref (hkind : Form.kindOf e.name ∈ Form.ref.kinds)
    (hattributes : Form.ref.checkAttributes e = .ok ()) : (Form.ref.node e content).Provided := by
  obtain ⟨s, hs, hnamed⟩ := (Form.checkAttributes_eq_ok_iff.mp hattributes).2 ⟨"kindref", .refKind⟩
    (by decide)
  -- The attribute is checked to name a kind, so the data does not fall back to a default.
  obtain ⟨kind, hofName⟩ :=
    Option.isSome_iff_exists.mp (AttributeRule.isSome_ofName?_iff.mpr hnamed)
  have hvalue : e.value "kindref" = s := by
    have hattribute : e.attribute? "kindref" = some s := hs
    rw [Element.value, hattribute]
    rfl
  have hdata : Form.ref.dataOf e content
      = .ref ⟨e.value "refid", kind, e.filled? "external", e.attribute? "tooltip"⟩ := by
    rw [Form.dataOf_ref, Form.start, hvalue, hofName]
  apply provided_of_kinds
  · rw [hdata]
    simp [Form.kinds, NodeKind.admits, NodeKind.mandatoryChild?]
  · exact hkind
  · rw [hdata]
    exact value_ne_empty hattributes (by decide)

/-- A compound has an id, a kind and a name, of which the name stands in a child. -/
theorem provided_compound (hkind : Form.kindOf e.name ∈ Form.compound.kinds)
    (hattributes : Form.compound.checkAttributes e = .ok ())
    (hclosing : Form.compound.checkClosing e content = .ok ()) :
    (Form.compound.node e content).Provided := by
  refine provided_of_kind rfl rfl rfl hkind ⟨?_, ?_, ?_⟩
  · exact value_ne_empty hattributes (by decide)
  · exact value_ne_empty hattributes (by decide)
  · exact isBlankText_of_told (by decide) (by decide) hclosing

/-- So has a member, besides its protection. -/
theorem provided_member (hkind : Form.kindOf e.name ∈ Form.member.kinds)
    (hattributes : Form.member.checkAttributes e = .ok ())
    (hclosing : Form.member.checkClosing e content = .ok ()) :
    (Form.member.node e content).Provided := by
  refine provided_of_kind rfl rfl rfl hkind ⟨?_, ?_, ?_, isBlankText_of_named (by decide) hclosing⟩
  · exact value_ne_empty hattributes (by decide)
  · exact value_ne_empty hattributes (by decide)
  · exact value_ne_empty hattributes (by decide)

/-- A value of an enumeration has an id, a protection and a name. -/
theorem provided_enumValue (hkind : Form.kindOf e.name ∈ Form.enumValue.kinds)
    (hattributes : Form.enumValue.checkAttributes e = .ok ())
    (hclosing : Form.enumValue.checkClosing e content = .ok ()) :
    (Form.enumValue.node e content).Provided := by
  refine provided_of_kind rfl rfl rfl hkind ⟨?_, ?_, isBlankText_of_named (by decide) hclosing⟩
  · exact value_ne_empty hattributes (by decide)
  · exact value_ne_empty hattributes (by decide)

/-- **Every form sees to what is mandatory** in its nodes, if their content is known to fit. -/
theorem provided_node (hkind : Form.kindOf e.name ∈ f.kinds)
    (hattributes : f.checkAttributes e = .ok ()) (hclosing : f.checkClosing e content = .ok ())
    (h : ContentFits f [] content) : (f.node e content).Provided := by
  cases f with
  | innerRef => exact provided_innerRef hkind hattributes
  | ref => exact provided_ref hkind hattributes
  | compound => exact provided_compound hkind hattributes hclosing
  | member => exact provided_member hkind hattributes hclosing
  | enumValue => exact provided_enumValue hkind hattributes hclosing
  | listedMember | sectionMember =>
    refine provided_of_kind rfl rfl rfl hkind ⟨?_, isBlankText_of_named (by decide) hclosing⟩
    exact value_ne_empty hattributes (by decide)
  | childNode =>
    refine provided_of_kind rfl rfl rfl hkind ⟨?_, ?_⟩
    · exact value_ne_empty hattributes (by decide)
    · exact value_ne_empty hattributes (by decide)
  | tocSect =>
    exact provided_of_kind rfl rfl rfl hkind (isBlankText_of_told (by decide) (by decide) hclosing)
  | graphLink | sectionDef | location | anchor | formula | ulink | tocItem =>
    exact provided_of_kind rfl rfl rfl hkind (value_ne_empty hattributes (by decide))
  | reimplementation | memberUse =>
    refine provided_of_kinds ?_ hkind (value_ne_empty hattributes (by decide))
    simp [Form.kinds, Form.dataOf, Form.start, NodeData.readOff, NodeKind.admits,
      NodeKind.mandatoryChild?]
  -- kinds with a mandatory child
  | graphNode =>
    refine provided_of_child hkind rfl rfl (value_ne_empty hattributes (by decide)) ?_
    exact h.exists_only (by decide) (by decide) (by decide) hclosing
  | parameterItem =>
    refine provided_of_child hkind rfl rfl trivial ?_
    exact h.exists_only (by decide) (by decide) (by decide) hclosing
  | xrefSect =>
    refine provided_of_child hkind rfl rfl (value_ne_empty hattributes (by decide)) ?_
    exact h.exists_only (by decide) (by decide) (by decide) hclosing
  -- nodes of all other forms have nothing to give
  | sect level =>
    have hlevels : ∀ x ∈ NodeKind.levels,
        x.2.demandsValues = false ∧ x.2.mandatoryChild? = none := by decide
    refine provided_of_silent (fun kind hk => ?_) hkind trivial
    exact hlevels _ (Form.mem_levels_of_mem_kinds_sect hk)
  | internal level => exact provided_of_kind rfl rfl rfl hkind trivial
  | htmlLiteral =>
    refine provided_of_silent (by decide) hkind ?_
    rw [Form.dataOf_htmlLiteral, Form.start]
    cases e.flag? "block" <;> trivial
  | _ => exact provided_of_silent (by decide) hkind trivial

end

/-! ### Data held of children -/

section

variable {n m : Node} {kinds : List NodeKind} {kind : NodeKind} {data : NodeData}

/-- Whatever is held of children of some kinds is the data of one of them. -/
theorem Node.HasData.exists_child {all : List NodeData} (h : n.HasData kinds all)
    (hdata : data ∈ all) : ∃ m ∈ n.children, m.data = data := by
  rw [← h] at hdata
  obtain ⟨m, hm, rfl⟩ := List.mem_map.mp hdata
  exact ⟨m, List.mem_of_mem_filter hm, rfl⟩

theorem Node.HasLastData.exists_child {last : Option NodeData} (h : n.HasLastData kind last)
    (hdata : data ∈ last.toList) : ∃ m ∈ n.children, m.data = data := by
  rw [← h, Option.mem_toList] at hdata
  obtain ⟨m, hm, rfl⟩ := Option.map_eq_some_iff.mp hdata
  exact ⟨m, List.mem_of_mem_filter (List.mem_of_getLast? hm), rfl⟩

/-- **Data that is held of a child** is the data of a child. -/
theorem Node.Coherent.exists_child_of_mem_held (hn : n.Coherent) (hdata : data ∈ n.data.held) :
    ∃ m ∈ n.children, m.data = data := by
  -- Only compounds and members hold data of their children.
  cases hd : n.data with
  | compound d =>
    rw [Node.Coherent, hd] at hn
    rw [hd, NodeData.held, List.mem_append] at hdata
    rcases hdata with hinner | hlocation
    · exact hn.2.inner.exists_child hinner
    · exact hn.2.location.exists_child hlocation
  | member d =>
    rw [Node.Coherent, hd] at hn
    rw [hd, NodeData.held, List.mem_append, List.mem_append] at hdata
    rcases hdata with (hreimplements | hreimplemented) | hlocation
    · exact hn.2.reimplements.exists_child hreimplements
    · exact hn.2.reimplementedBy.exists_child hreimplemented
    · exact hn.2.location.exists_child hlocation
  | _ =>
    rw [hd] at hdata
    exact absurd hdata List.not_mem_nil

/-- So it is filled as well. -/
theorem filled_held (hn : n.Coherent) (hchildren : ∀ m ∈ n.children, m.Provided) :
    ∀ data ∈ n.data.held, data.Filled := by
  intro data hdata
  obtain ⟨m, hm, rfl⟩ := hn.exists_child_of_mem_held hdata
  exact (hchildren m hm).filled

end

/-! ### Compounds -/

/-- Every node of a compound is provided with what is mandatory, and coherent besides. -/
theorem provided_buildCompound {e : Element} {n : Node} (hn : buildCompound e = .ok n) :
    ∀ m ∈ n.entered fun _ => false, m.Coherent ∧ m.Provided := by
  -- A pair has no data to fill, and no child that must be there.
  have hpair : ∀ term definition, (Node.pair term definition).Provided := by
    intro term definition
    constructor
    case admitted => rfl
    case filled => trivial
    case child =>
      intro kind hmandatory
      cases hmandatory
  have hnode : ∀ f e content, Form.kindOf e.name ∈ f.kinds → f.checkAttributes e = .ok () →
      f.checkClosing e content = .ok () → ContentFits f [] content → (f.node e content).Provided :=
    fun _ _ _ => provided_node
  obtain ⟨⟨-, hcoherent⟩, hprovided⟩ :=
    buildCompound_induction (preserved_coherent.forall_entered hpair hnode) hn
  exact fun m hm => ⟨hcoherent m hm, hprovided m hm⟩

/-- **Nothing mandatory is missing** from any node of a compound. -/
theorem complete_buildCompound {e : Element} {n : Node} (hn : buildCompound e = .ok n) :
    ∀ m ∈ n.entered fun _ => false, m.Complete := by
  intro m hm
  obtain ⟨hcoherent, hprovided⟩ := provided_buildCompound hn m hm
  refine ⟨hprovided, filled_held hcoherent fun c hc => ?_⟩
  have hentered : c ∈ m.entered fun _ => false :=
    Node.mem_entered_all_of_child hc Node.mem_entered_self
  exact (provided_buildCompound hn c (Node.mem_entered_all_trans hm hentered)).2

/-- A class with a nested class and a method, whose description refers to others. -/
def documentedClass : Element where
  name := "compounddef"
  attributes := [⟨"id", "classA"⟩, ⟨"kind", "class"⟩]
  content :=
    [.child { name := "compoundname", content := [.text "A"] },
     .child
       { name := "innerclass", attributes := [⟨"refid", "classA_1_1B"⟩]
         content := [.text "A::B"] },
     .child
       { name := "sectiondef", attributes := [⟨"kind", "public-func"⟩]
         content :=
           [.child
             { name := "memberdef"
               attributes := [⟨"id", "classA_1f"⟩, ⟨"kind", "function"⟩, ⟨"prot", "public"⟩]
               content := [.child { name := "name", content := [.text "f"] }] }] },
     .child
       { name := "detaileddescription"
         content :=
           [.child
             { name := "para"
               content :=
                 [.child
                   { name := "ref", attributes := [⟨"refid", "classB"⟩, ⟨"kindref", "compound"⟩]
                     content := [.text "B"] },
                  .child
                   { name := "xrefsect", attributes := [⟨"id", "todo_1"⟩]
                     content := [.child { name := "xrefdescription" }] }] }] },
     .child { name := "location", attributes := [⟨"file", "a.h"⟩, ⟨"line", "3"⟩] }]

theorem complete_buildCompound_documented : ∃ n, buildCompound documentedClass = .ok n
    ∧ n.data.held.length = 2 ∧ (∀ m ∈ n.entered fun _ => false, m.Complete) := by
  have hheld : (buildCompound documentedClass).toOption.any (·.data.held.length == 2) = true := by
    decide
  obtain ⟨n, hn, hlength⟩ := exists_eq_ok_of_any hheld
  exact ⟨n, hn, by simpa using hlength, complete_buildCompound hn⟩

end DocGraph
