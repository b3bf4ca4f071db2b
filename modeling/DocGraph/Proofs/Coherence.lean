import DocGraph.Proofs.Making
import DocGraph.Proofs.Places

namespace DocGraph

/-!
# Data and children

What the data of a node says of its children is so, in every node of a compound.  Building takes it
from each child when it is pushed, before the content is complete (`Draft.push`, `NodeData.take`);
by `Form.build_eq` it is in the end what can be read off the content.

* `CompoundDef.Agrees`, `MemberDef.Agrees` and others — what each kind of data says of children;
* `Node.Coherent` — the data of a node is of the sort that goes with its kind, and agrees with its
  children;
* `Form.allowsOnce`, `ContentFits` — which children a content has at most once;
* `coherent_buildCompound` — the main statement: all nodes of a compound are coherent.
-/

/-! ### What data says -/

/-- The data of a compound and its children. -/
structure CompoundDef.Agrees (d : CompoundDef) (n : Node) : Prop where
  name : n.HasOnlyText .compoundName (some d.name)
  title : n.HasOnlyText .title d.title
  bases : n.HasData [.baseCompoundRef] (d.bases.map .compoundRef)
  derived : n.HasData [.derivedCompoundRef] (d.derived.map .compoundRef)
  inner : n.HasData NodeKind.inner (d.inner.map .inner)
  brief : n.HoldsOnly .briefDescription d.brief
  detailed : n.HoldsOnly .detailedDescription d.detailed
  templateParams : n.HoldsOnly .templateParamList d.templateParams
  sections : n.HoldsAll [.sectionDef] d.sections
  contents : n.HoldsOnly .tableOfContents d.contents
  listing : n.HoldsOnly .programListing d.listing
  location : n.HasLastData .location (d.location.map .location)

/-- The data of a group of members and its children. -/
structure SectionDef.Agrees (d : SectionDef) (n : Node) : Prop where
  header : n.HasOnlyText .header d.header
  description : n.HoldsOnly .description d.description
  members : n.HoldsAll [.memberDef, .member] d.members

/-- The data of a member and its children. -/
structure MemberDef.Agrees (d : MemberDef) (n : Node) : Prop where
  name : n.HasLastText .name (some d.name)
  qualifiedName : n.HasLastText .qualifiedName d.qualifiedName
  definition : n.HasLastText .definition d.definition
  argsString : n.HasLastText .argsString d.argsString
  bitfield : n.HasLastText .bitfield d.bitfield
  read : n.HasLastText .read d.read
  write : n.HasLastText .write d.write
  type : n.HoldsOnly .type d.type
  templateParams : n.HoldsOnly .templateParamList d.templateParams
  initializer : n.HoldsOnly .initializer d.initializer
  exceptions : n.HoldsOnly .exceptions d.exceptions
  params : n.HoldsAll [.param] d.params
  enumValues : n.HoldsAll [.enumValue] d.enumValues
  brief : n.HoldsOnly .briefDescription d.brief
  detailed : n.HoldsOnly .detailedDescription d.detailed
  inbody : n.HoldsOnly .inbodyDescription d.inbody
  reimplements : n.HasData [.reimplements] (d.reimplements.map .reimplement)
  reimplementedBy : n.HasData [.reimplementedBy] (d.reimplementedBy.map .reimplement)
  location : n.HasLastData .location (d.location.map .location)

/-- The data of a member listed outside its definition and its children. -/
structure MemberRef.Agrees (d : MemberRef) (n : Node) : Prop where
  name : n.HasLastText .name (some d.name)
  scope : n.HasLastText .scope d.scope

/-- The data of a value of an enumeration and its children. -/
structure EnumValue.Agrees (d : EnumValue) (n : Node) : Prop where
  name : n.HasLastText .name (some d.name)
  initializer : n.HoldsOnly .initializer d.initializer
  brief : n.HoldsOnly .briefDescription d.brief
  detailed : n.HoldsOnly .detailedDescription d.detailed

/-- The data of a parameter and its children. -/
structure Param.Agrees (d : Param) (n : Node) : Prop where
  attributes : n.HasLastText .attributes d.attributes
  declName : n.HasLastText .declName d.declName
  defName : n.HasLastText .defName d.defName
  array : n.HasLastText .array d.array
  type : n.HoldsOnly .type d.type
  defVal : n.HoldsOnly .defVal d.defVal
  typeConstraint : n.HoldsOnly .typeConstraint d.typeConstraint
  brief : n.HoldsOnly .briefDescription d.brief

/-- Whether the data of the nodes of a kind says something of their children. -/
def NodeKind.tellsOfChildren : NodeKind → Bool
  | .compoundDef | .sectionDef | .memberDef | .member | .enumValue | .param | .tocSect
  | .briefDescription | .detailedDescription | .inbodyDescription | .description
  | .parameterDescription | .xrefDescription | .sect1 | .sect2 | .sect3 | .sect4 | .sect5
  | .sect6 | .simpleSect | .table | .xrefSect => true
  | _ => false

/-- The data of a node is of the sort that goes with its kind, and agrees with its children. -/
def Node.Coherent (n : Node) : Prop :=
  match n.data with
  | .compound d => n.kind = .compoundDef ∧ d.Agrees n
  | .sectionDef d => n.kind = .sectionDef ∧ d.Agrees n
  | .member d => n.kind = .memberDef ∧ d.Agrees n
  | .memberRef d => n.kind = .member ∧ d.Agrees n
  | .enumValue d => n.kind = .enumValue ∧ d.Agrees n
  | .param d => n.kind = .param ∧ d.Agrees n
  | .tocSect name reference =>
    n.kind = .tocSect ∧ (∃ text, n.HasOnlyText .name text ∧ name = text.getD "")
      ∧ n.HasOnlyText .reference (some reference)
  | .description title => n.kind.isDescription = true ∧ n.HoldsOnly .title title
  | .sect level _ title => n.kind.sectLevel? = some level ∧ n.HoldsOnly .title title
  | .simpleSect _ title => n.kind = .simpleSect ∧ n.HoldsOnly .title title
  | .table d => n.kind = .table ∧ n.HoldsOnly .caption d.caption
  | .xrefSect _ title =>
    n.kind = .xrefSect ∧ (n.childrenOf .xrefTitle).head?.map Node.text = title
  | _ => n.kind.tellsOfChildren = false

/-! ### Children that occur once -/

/-- What is known of the content of a node. -/
structure ContentFits (f : Form) (before : List NodeKind) (content : List (Content Node)) :
    Prop where
  built : ∀ m ∈ Content.children content,
    ∃ g e c, Form.kindOf e.name ∈ g.kinds ∧ Form.node g e c = m
  placed : ∀ m ∈ Content.children content, m.kind ≠ .entity → (f.slot? m.kind.tag).isSome
  coherent : ∀ m ∈ Content.children content, ∀ m' ∈ m.entered fun _ => false, m'.Coherent
  once : ∀ kind, f.allowsOnce kind = true →
    (ofKind kind content).length ≤ 1 ∧ (kind ∈ before → ofKind kind content = [])

section

variable {f g : Form} {before : List NodeKind} {content : List (Content Node)} {n m : Node}
variable {kind : NodeKind}

/-- The data of a child of a kind that has a form of its own. -/
theorem ContentFits.data_of_form? (h : ContentFits f before content)
    (hm : m ∈ Content.children content) (hform : m.kind.form? = some g) :
    ∃ e c, Form.kindOf e.name = m.kind ∧ m.data = g.dataOf e c := by
  obtain ⟨g', e, c, hkind, rfl⟩ := h.built m hm
  obtain rfl := Form.eq_of_form? hform hkind
  exact ⟨e, c, rfl, rfl⟩

/-- Data is read off all children of kinds whose elements all have one form, if the form gives them
data of the sort. -/
theorem ContentFits.hasData (h : ContentFits f before content) (hcontent : n.content = content)
    {α : Type} {kinds : List NodeKind} {get : NodeData → Option α} {put : α → NodeData}
    (hform : ∀ kind ∈ kinds, kind.form? = some g)
    (hput : ∀ e c, Form.kindOf e.name ∈ kinds →
      ∃ d, get (g.dataOf e c) = some d ∧ g.dataOf e c = put d) :
    n.HasData kinds ((dataOfKinds kinds get content).map put) := by
  subst hcontent
  refine Node.hasData_dataOfKinds fun m hm hkind => ?_
  obtain ⟨e, c, hname, hdata⟩ := h.data_of_form? hm (hform m.kind hkind)
  rw [hdata]
  exact hput e c (hname ▸ hkind)

/-- The tag of a reference to a nested compound tells what is nested, so there is data. -/
theorem exists_dataOf_innerRef {e : Element} (hkind : Form.kindOf e.name ∈ NodeKind.inner)
    (content : List (Content Node)) :
    ∃ d, Form.innerRef.dataOf e content = .inner d ∧ d.refid = e.value "refid" := by
  have htags : ∀ kind ∈ NodeKind.inner,
      kind ≠ .entity ∧ (InnerKind.ofTag? kind.tag).isSome := by decide
  obtain ⟨hentity, htag⟩ := htags _ hkind
  rw [Form.tag_kindOf hentity] at htag
  obtain ⟨kind, hofTag⟩ := Option.isSome_iff_exists.mp htag
  rw [Form.dataOf_innerRef, Form.start, hofTag]
  exact ⟨_, rfl, rfl⟩

/-- A location is that of the last child that gives one. -/
theorem ContentFits.hasLastData_location (h : ContentFits f before content)
    (hcontent : n.content = content) :
    n.HasLastData .location ((lastData? .location (·.location?) content).map .location) := by
  subst hcontent
  refine Node.hasLastData_lastData? fun m hm hkind => ?_
  obtain ⟨e, c, -, hdata⟩ := h.data_of_form? (g := .location) hm (by rw [hkind]; rfl)
  rw [hdata]
  exact ⟨_, rfl, rfl⟩

/-- Children that occur once are few. -/
theorem ContentFits.length_childrenOf_le (h : ContentFits f before content)
    (hcontent : n.content = content) {kinds : List NodeKind}
    (honce : ∀ kind ∈ kinds, f.allowsOnce kind = true) :
    ∀ kind ∈ kinds, (n.childrenOf kind).length ≤ 1 := by
  subst hcontent
  exact fun kind hkind => (h.once kind (honce kind hkind)).1

/-- The place of a child that occurs once is that of the only one. -/
theorem ContentFits.holdsOnly (h : ContentFits f before content) (hcontent : n.content = content)
    (honce : f.allowsOnce kind = true) : n.HoldsOnly kind (placeOf? kind content) := by
  subst hcontent
  exact Node.holdsOnly_placeOf? (h.once kind honce).1

end

/-! ### Texts that have to be given -/

section

variable {e : Element} {n : Node} {kind : NodeKind}

theorem hasOnlyText_of_told (honce : (n.childrenOf kind).length ≤ 1)
    (hkind : kind ∈ NodeKind.tagged)
    (htold : (Form.Closing.told kind.tag).check e n.content = .ok ()) :
    n.HasOnlyText kind (some ((firstText? kind n.content).getD "")) := by
  have htext := Node.hasOnlyText_firstText? honce
  rw [Form.Closing.check, Form.kindOf_tag hkind] at htold
  cases hfirst : firstText? kind n.content with
  | none => simp [hfirst] at htold
  | some text => rwa [hfirst] at htext

theorem hasLastText_of_named (hnamed : Form.Closing.named.check e n.content = .ok ()) :
    n.HasLastText .name (some ((lastText? .name n.content).getD "")) := by
  have htext := n.hasLastText_lastText? .name
  cases hlast : lastText? .name n.content with
  | none =>
    have hblank : isBlankText "" = true := by decide
    simp [Form.Closing.check, hlast, hblank] at hnamed
  | some text => rwa [hlast] at htext

end

/-! ### Nodes -/

section

variable {f : Form} {e : Element} {content : List (Content Node)}

/-- **The data of a compound agrees with its children**: single children have slots of their own,
sections are listed, and the data of references is gathered. -/
theorem coherent_compound (hkind : Form.kindOf e.name ∈ Form.compound.kinds)
    (hclosing : Form.compound.checkClosing e content = .ok ())
    (h : ContentFits .compound [] content) : (Form.compound.node e content).Coherent := by
  have hcontent : (Form.compound.node e content).content = content := rfl
  have hallows : ∀ kind ∈ CompoundDef.heldOnce, Form.compound.allowsOnce kind = true :=
    fun _ hheld => Form.allowsOnce_of_mem_heldOnce (e := e) hheld
  -- A slot for one child holds at most one, so reading its first place or text loses nothing.
  have honce := h.length_childrenOf_le hcontent hallows
  refine ⟨List.mem_singleton.mp hkind, ?_⟩
  constructor
  case name =>
    exact hasOnlyText_of_told (honce _ (by decide)) (by decide)
      (Form.checkClosing_eq_ok_iff.mp hclosing _ (by decide))
  case title => exact Node.hasOnlyText_firstText? (honce _ (by decide))
  case bases =>
    exact h.hasData (g := .compoundRef) hcontent (by decide) fun _ _ _ => ⟨_, rfl, rfl⟩
  case derived =>
    exact h.hasData (g := .compoundRef) hcontent (by decide) fun _ _ _ => ⟨_, rfl, rfl⟩
  case inner =>
    refine h.hasData (g := .innerRef) hcontent (by decide) fun e c hkind => ?_
    obtain ⟨d, hdata, -⟩ := exists_dataOf_innerRef hkind c
    exact ⟨d, by rw [hdata]; rfl, hdata⟩
  case brief => exact Node.holdsOnly_placeOf? (honce _ (by decide))
  case detailed => exact Node.holdsOnly_placeOf? (honce _ (by decide))
  case templateParams => exact Node.holdsOnly_placeOf? (honce _ (by decide))
  case sections => exact Node.holdsAll_placesOf _ _
  case contents => exact Node.holdsOnly_placeOf? (honce _ (by decide))
  case listing => exact Node.holdsOnly_placeOf? (honce _ (by decide))
  case location => exact h.hasLastData_location hcontent

/-- A group of members has one description and lists all its members, with the text of its first
header. -/
theorem coherent_sectionDef (hkind : Form.kindOf e.name ∈ Form.sectionDef.kinds)
    (h : ContentFits .sectionDef [] content) : (Form.sectionDef.node e content).Coherent := by
  have hcontent : (Form.sectionDef.node e content).content = content := rfl
  have hallows : ∀ kind ∈ [NodeKind.header, .description],
      Form.sectionDef.allowsOnce kind = true := by decide
  have honce := h.length_childrenOf_le hcontent hallows
  refine ⟨List.mem_singleton.mp hkind, ?_⟩
  constructor
  case header => exact Node.hasOnlyText_firstText? (honce _ (by decide))
  case description => exact Node.holdsOnly_placeOf? (honce _ (by decide))
  case members => exact Node.holdsAll_placesOf _ _

/-- **The data of a member** agrees with its children.  Its texts are those of the last children
that give them. -/
theorem coherent_member (hkind : Form.kindOf e.name ∈ Form.member.kinds)
    (hclosing : Form.member.checkClosing e content = .ok ())
    (h : ContentFits .member [] content) : (Form.member.node e content).Coherent := by
  have hcontent : (Form.member.node e content).content = content := rfl
  have hallows : ∀ kind ∈ MemberDef.heldOnce, Form.member.allowsOnce kind = true :=
    fun _ hheld => Form.allowsOnce_of_mem_heldOnce (e := e) hheld
  have honce := h.length_childrenOf_le hcontent hallows
  refine ⟨List.mem_singleton.mp hkind, ?_⟩
  constructor
  case name =>
    exact hasLastText_of_named (Form.checkClosing_eq_ok_iff.mp hclosing _ (by decide))
  case reimplements =>
    exact h.hasData (g := .reimplementation) hcontent (by decide) fun _ _ _ => ⟨_, rfl, rfl⟩
  case reimplementedBy =>
    exact h.hasData (g := .reimplementation) hcontent (by decide) fun _ _ _ => ⟨_, rfl, rfl⟩
  case location => exact h.hasLastData_location hcontent
  case params => exact Node.holdsAll_placesOf _ _
  case enumValues => exact Node.holdsAll_placesOf _ _
  case qualifiedName => exact Node.hasLastText_lastText? _ _
  case definition => exact Node.hasLastText_lastText? _ _
  case argsString => exact Node.hasLastText_lastText? _ _
  case bitfield => exact Node.hasLastText_lastText? _ _
  case read => exact Node.hasLastText_lastText? _ _
  case write => exact Node.hasLastText_lastText? _ _
  -- all other fields hold the place of a child that occurs once
  all_goals exact Node.holdsOnly_placeOf? (honce _ (by decide))

/-- A listed member has a name and a scope, both from the last child of the sort. -/
theorem coherent_listedMember (hkind : Form.kindOf e.name ∈ Form.listedMember.kinds)
    (hclosing : Form.listedMember.checkClosing e content = .ok ()) :
    (Form.listedMember.node e content).Coherent := by
  refine ⟨List.mem_singleton.mp hkind, ?_, Node.hasLastText_lastText? _ _⟩
  exact hasLastText_of_named (Form.checkClosing_eq_ok_iff.mp hclosing _ (by decide))

theorem coherent_sectionMember (hkind : Form.kindOf e.name ∈ Form.sectionMember.kinds)
    (hclosing : Form.sectionMember.checkClosing e content = .ok ()) :
    (Form.sectionMember.node e content).Coherent := by
  refine ⟨List.mem_singleton.mp hkind, ?_, Node.hasLastText_lastText? _ _⟩
  exact hasLastText_of_named (Form.checkClosing_eq_ok_iff.mp hclosing _ (by decide))

/-- A parameter asks for nothing, so its texts may be absent. -/
theorem coherent_param (hkind : Form.kindOf e.name ∈ Form.param.kinds)
    (h : ContentFits .param [] content) : (Form.param.node e content).Coherent := by
  have hcontent : (Form.param.node e content).content = content := rfl
  have hallows : ∀ kind ∈ Param.heldOnce, Form.param.allowsOnce kind = true :=
    fun _ hheld => Form.allowsOnce_of_mem_heldOnce (e := e) hheld
  have honce := h.length_childrenOf_le hcontent hallows
  refine ⟨List.mem_singleton.mp hkind, ?_⟩
  constructor
  case attributes => exact Node.hasLastText_lastText? _ _
  case declName => exact Node.hasLastText_lastText? _ _
  case defName => exact Node.hasLastText_lastText? _ _
  case array => exact Node.hasLastText_lastText? _ _
  all_goals exact Node.holdsOnly_placeOf? (honce _ (by decide))

/-- A value of an enumeration has a name. -/
theorem coherent_enumValue (hkind : Form.kindOf e.name ∈ Form.enumValue.kinds)
    (hclosing : Form.enumValue.checkClosing e content = .ok ())
    (h : ContentFits .enumValue [] content) : (Form.enumValue.node e content).Coherent := by
  have hcontent : (Form.enumValue.node e content).content = content := rfl
  have hallows : ∀ kind ∈ EnumValue.heldOnce, Form.enumValue.allowsOnce kind = true :=
    fun _ hheld => Form.allowsOnce_of_mem_heldOnce (e := e) hheld
  have honce := h.length_childrenOf_le hcontent hallows
  refine ⟨List.mem_singleton.mp hkind, ?_⟩
  constructor
  case name =>
    exact hasLastText_of_named (Form.checkClosing_eq_ok_iff.mp hclosing _ (by decide))
  all_goals exact Node.holdsOnly_placeOf? (honce _ (by decide))

/-- An entry of a table of contents has a reference, and maybe a name. -/
theorem coherent_tocSect (hkind : Form.kindOf e.name ∈ Form.tocSect.kinds)
    (hclosing : Form.tocSect.checkClosing e content = .ok ())
    (h : ContentFits .tocSect [] content) : (Form.tocSect.node e content).Coherent := by
  have hcontent : (Form.tocSect.node e content).content = content := rfl
  have hallows : ∀ kind ∈ [NodeKind.name, .reference],
      Form.tocSect.allowsOnce kind = true := by decide
  have honce := h.length_childrenOf_le hcontent hallows
  refine ⟨List.mem_singleton.mp hkind, ⟨_, ?_, rfl⟩, ?_⟩
  · exact Node.hasOnlyText_firstText? (honce _ (by decide))
  · exact hasOnlyText_of_told (honce _ (by decide)) (by decide)
      (Form.checkClosing_eq_ok_iff.mp hclosing _ (by decide))

/-- **Every node that is built is coherent**, if its content is known to fit. -/
theorem coherent_node (hkind : Form.kindOf e.name ∈ f.kinds)
    (hclosing : f.checkClosing e content = .ok ()) (h : ContentFits f [] content) :
    (f.node e content).Coherent := by
  cases f with
  | compound => exact coherent_compound hkind hclosing h
  | sectionDef => exact coherent_sectionDef hkind h
  | member => exact coherent_member hkind hclosing h
  | listedMember => exact coherent_listedMember hkind hclosing
  | sectionMember => exact coherent_sectionMember hkind hclosing
  | param => exact coherent_param hkind h
  | enumValue => exact coherent_enumValue hkind hclosing h
  | tocSect => exact coherent_tocSect hkind hclosing h
  | description =>
    have hdescriptions : ∀ k ∈ Form.description.kinds, k.isDescription = true := by decide
    exact ⟨hdescriptions _ hkind, h.holdsOnly rfl (by decide)⟩
  | sect level =>
    exact ⟨NodeKind.sectLevel?_eq_some_iff.mpr (Option.mem_toList.mp hkind), h.holdsOnly rfl rfl⟩
  | simpleSect => exact ⟨List.mem_singleton.mp hkind, h.holdsOnly rfl (by decide)⟩
  | table => exact ⟨List.mem_singleton.mp hkind, h.holdsOnly rfl (by decide)⟩
  | xrefSect => exact ⟨List.mem_singleton.mp hkind, rfl⟩
  -- nodes of all other forms say nothing of their children, whatever their data is
  | internal level =>
    obtain hkind := List.mem_singleton.mp hkind
    exact congrArg NodeKind.tellsOfChildren hkind
  | innerRef =>
    have hsilent : (Form.kindOf e.name).tellsOfChildren = false :=
      (by decide : ∀ k ∈ Form.innerRef.kinds, k.tellsOfChildren = false) _ hkind
    rw [Node.Coherent, Form.node, Form.dataOf_innerRef, Form.start]
    cases InnerKind.ofTag? e.name <;> exact hsilent
  | ref =>
    have hsilent : (Form.kindOf e.name).tellsOfChildren = false :=
      (by decide : ∀ k ∈ Form.ref.kinds, k.tellsOfChildren = false) _ hkind
    rw [Node.Coherent, Form.node, Form.dataOf_ref, Form.start]
    cases RefKind.ofName? (e.value "kindref") <;> exact hsilent
  | htmlLiteral =>
    have hsilent : (Form.kindOf e.name).tellsOfChildren = false :=
      (by decide : ∀ k ∈ Form.htmlLiteral.kinds, k.tellsOfChildren = false) _ hkind
    rw [Node.Coherent, Form.node, Form.dataOf_htmlLiteral, Form.start]
    cases e.flag? "block" <;> exact hsilent
  | _ => exact (by decide : ∀ k ∈ _, NodeKind.tellsOfChildren k = false) _ hkind

end

/-! ### Compounds -/

section

variable {f : Form} {before : List NodeKind} {content content' : List (Content Node)} {n : Node}

/-- Pairs say nothing of their children. -/
theorem ContentFits.coherent_arrange (h : ContentFits f before content) :
    ∀ c ∈ Content.children (f.arrange content), ∀ m ∈ c.entered fun _ => false, m.Coherent :=
  Form.forall_arrange (fun _ _ => rfl) h.coherent

/-- Character data is no matter. -/
theorem ContentFits.congr (h : ContentFits f before content)
    (hchildren : Content.children content' = Content.children content) :
    ContentFits f before content' where
  built := hchildren ▸ h.built
  placed := hchildren ▸ h.placed
  coherent := hchildren ▸ h.coherent
  once := by
    have hkind : ∀ kind, ofKind kind content' = ofKind kind content := fun kind => by
      rw [ofKind, hchildren]
      rfl
    simpa only [hkind] using h.once

/-- Before the first child nothing is known, and nothing has to be. -/
theorem contentFits_nil (f : Form) (before : List NodeKind) : ContentFits f before [] where
  built _ hm := absurd hm List.not_mem_nil
  placed _ hm := absurd hm List.not_mem_nil
  coherent _ hm := absurd hm List.not_mem_nil
  once _ _ := ⟨Nat.zero_le 1, fun _ => rfl⟩

/-- **One more child** fits if it stands in its place and does not come again where it may not. -/
theorem ContentFits.child {e : Element} {slot : Form.Slot}
    (hplace : f.place before e.name = .ok slot)
    (hn : ∃ c, Form.kindOf e.name ∈ slot.form.kinds ∧ slot.form.node e c = n)
    (hcoherent : ∀ m ∈ n.entered fun _ => false, m.Coherent)
    (honce : slot.once → n.kind ∉ before) (h : ContentFits f (n.kind :: before) content) :
    ContentFits f before (.child n :: content) := by
  obtain ⟨c, hkind, hn⟩ := hn
  -- The slot is found again from the kind of the node, since the kind knows its tag.
  have hslot : n.kind ≠ .entity → f.slot? n.kind.tag = some slot := by
    intro hne
    subst hn
    have htag : (slot.form.node e c).kind.tag = e.name := Form.tag_kindOf hne
    rw [htag, (Form.place_eq_ok_iff.mp hplace).1]
  constructor
  case built => exact List.forall_mem_cons.mpr ⟨⟨slot.form, e, c, hkind, hn⟩, h.built⟩
  case placed => exact List.forall_mem_cons.mpr ⟨fun hne => by rw [hslot hne]; rfl, h.placed⟩
  case coherent => exact List.forall_mem_cons.mpr ⟨hcoherent, h.coherent⟩
  case once =>
    intro kind hallows
    obtain ⟨hfew, hnone⟩ := h.once kind hallows
    rw [ofKind_child]
    -- A node of this kind is the only one: `before` holds it from now on, so none follows.
    by_cases hkind : n.kind = kind
    · subst hkind
      have hslotOnce : slot.once = true := by
        simp only [Form.allowsOnce, Bool.and_eq_true, decide_eq_true_eq] at hallows
        simpa [hslot hallows.1] using hallows.2
      rw [if_pos rfl, hnone List.mem_cons_self]
      exact ⟨Nat.le_refl 1, fun hbefore => absurd hbefore (honce hslotOnce)⟩
    · rw [if_neg hkind]
      exact ⟨hfew, fun hbefore => hnone (List.mem_cons_of_mem _ hbefore)⟩

end

/-- Coherence is preserved by every step of building. -/
theorem preserved_coherent : Form.Preserved
    (fun f e n => (∃ c, Form.kindOf e.name ∈ f.kinds ∧ Form.node f e c = n)
      ∧ ∀ m ∈ n.entered fun _ => false, m.Coherent)
    fun f before _ content => ContentFits f before content := by
  constructor
  case node =>
    rintro f e content hkind - - hclosing hcontent
    refine ⟨⟨content, hkind, rfl⟩, fun m hm => ?_⟩
    -- the node itself, which the data agrees with, or one below, where the content is coherent
    rcases Node.mem_entered_iff.mp hm with rfl | ⟨-, c, hc, hm⟩
    · exact coherent_node hkind hclosing hcontent
    · exact hcontent.coherent_arrange c hc m hm
  case nil => exact contentFits_nil
  case text =>
    intro f before s kept rest others hkept hothers
    cases kept with
    | false => exact hothers
    | true => exact hothers.congr (Content.children_consText s others)
  case child =>
    rintro f before e rest slot n others hplace ⟨hn, hcoherent⟩ honce hothers
    exact hothers.child hplace hn hcoherent honce

/-- **Data and children agree** in every node of a compound. -/
theorem coherent_buildCompound {e : Element} {n : Node} (hn : buildCompound e = .ok n) :
    ∀ m ∈ n.entered fun _ => false, m.Coherent :=
  (buildCompound_induction preserved_coherent hn).2

/-- A class with a brief description. -/
def describedClass : Element where
  name := "compounddef"
  attributes := [⟨"id", "classA"⟩, ⟨"kind", "class"⟩]
  content :=
    [.child { name := "compoundname", content := [.text "A"] },
      .child { name := "briefdescription" }]

theorem coherent_buildCompound_described : ∃ n, buildCompound describedClass = .ok n
    ∧ n.asCompound?.bind (·.brief) = some 1 ∧ ∀ m ∈ n.entered fun _ => false, m.Coherent := by
  have hbrief : ((buildCompound describedClass).toOption.bind Node.asCompound?).bind (·.brief)
      = some 1 := by decide +kernel
  cases hn : buildCompound describedClass with
  | error v => simp [hn, Except.toOption] at hbrief
  | ok n =>
    rw [hn] at hbrief
    exact ⟨n, rfl, hbrief, coherent_buildCompound hn⟩

end DocGraph
