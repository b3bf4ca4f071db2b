import DocGraph.Schema.Build

namespace DocGraph

/-!
# The forms of elements by their tags

A form gives its child elements their forms by their tags.  So what nodes a form makes is known from
the schema alone:

* `NodeKind.ofTag?_tag`, `Form.kindOf_tag` — no two kinds have the same tag;
* `Form.kinds`, `Form.Suits` — the kinds of the elements that are given a form;
* `Form.suits_of_slot?` — every form is given only to such elements;
* `Form.tag_kindOf` — hence the tag of an element is that of its node, entities apart;
* `NodeKind.form?`, `Form.eq_of_form?` — kinds whose elements all have one form.
-/

/-! ### Tags -/

namespace NodeKind

variable {k : NodeKind} {tag : String}

/-- **No two kinds have the same tag.** -/
theorem pairwise_tag_ne : tagged.Pairwise fun k k' => k.tag ≠ k'.tag := by decide +kernel

/-- Pairs stand for no element, so they have no tag. -/
theorem varListPair_not_mem_tagged : .varListPair ∉ tagged := by decide

theorem mem_tagged_of_ofTag? (hk : ofTag? tag = some k) : k ∈ tagged := List.mem_of_find?_eq_some hk

theorem tag_of_ofTag? (hk : ofTag? tag = some k) : k.tag = tag := by
  simpa using List.find?_some hk

/-- **A tag is that of one kind only.** -/
theorem ofTag?_tag (hk : k ∈ tagged) : ofTag? k.tag = some k := by
  obtain ⟨before, after, hsplit⟩ := List.append_of_mem hk
  have hne := pairwise_tag_ne
  rw [hsplit, List.pairwise_append] at hne
  rw [ofTag?, hsplit, List.find?_append]
  have hnone : before.find? (·.tag == k.tag) = none := by
    rw [List.find?_eq_none]
    intro k' hk'
    simpa using hne.2.2 k' hk' k List.mem_cons_self
  simp [hnone]

/-- The levels of sections, with the kind of each. -/
def levels : List (Nat × NodeKind) :=
  [(1, .sect1), (2, .sect2), (3, .sect3), (4, .sect4), (5, .sect5), (6, .sect6)]

/-- The kinds of sections are listed by level. -/
theorem mem_levels_of_sect? {level : Nat} (hk : sect? level = some k) : (level, k) ∈ levels := by
  unfold sect? at hk
  split at hk <;> cases hk <;> decide

theorem le_of_sect? {level : Nat} (hk : sect? level = some k) : 1 ≤ level ∧ level ≤ 6 := by
  have hlevels : ∀ x ∈ levels, 1 ≤ x.1 ∧ x.1 ≤ 6 := by decide
  exact hlevels _ (mem_levels_of_sect? hk)

/-- A kind of section tells its level. -/
theorem sectLevel?_eq_some_iff {level : Nat} :
    k.sectLevel? = some level ↔ sect? level = some k := by
  have hlevels : ∀ x ∈ levels, x.2.sectLevel? = some x.1 := by decide
  constructor
  · intro h
    cases k <;> cases h <;> rfl
  · intro h
    exact hlevels _ (mem_levels_of_sect? h)

/-- The form of the elements of a kind, where their data is read together with their kind. -/
def form? : NodeKind → Option Form
  | .entity => some .entity
  | .location => some .location
  | .baseCompoundRef | .derivedCompoundRef => some .compoundRef
  | .innerModule | .innerDir | .innerFile | .innerClass | .innerConcept | .innerNamespace
  | .innerPage | .innerGroup => some .innerRef
  | .reimplements | .reimplementedBy => some .reimplementation
  | _ => none

end NodeKind

namespace Form

variable {f : Form} {k : NodeKind} {tag : String} {slot : Slot}

/-- **A tag leads back to its kind.** -/
theorem kindOf_tag (hk : k ∈ NodeKind.tagged) : kindOf k.tag = k := by
  rw [kindOf, NodeKind.ofTag?_tag hk]
  rfl

/-- A kind leads back to its tag, but for entities, which have tags of their own. -/
theorem tag_kindOf (htag : kindOf tag ≠ .entity) : (kindOf tag).tag = tag := by
  rw [kindOf] at htag ⊢
  cases hk : NodeKind.ofTag? tag with
  | none => exact absurd (by rw [hk]; rfl) htag
  | some k => exact NodeKind.tag_of_ofTag? hk

/-- The search for a tag finds its kind. -/
theorem ofTag?_eq_kindOf (htag : kindOf tag ≠ .entity) :
    NodeKind.ofTag? tag = some (kindOf tag) := by
  rw [kindOf] at htag ⊢
  cases hk : NodeKind.ofTag? tag with
  | none => exact absurd (by rw [hk]; rfl) htag
  | some k => rfl

/-- No tag is that of a pair. -/
theorem kindOf_ne_varListPair (tag : String) : kindOf tag ≠ .varListPair := by
  rw [kindOf]
  cases hk : NodeKind.ofTag? tag with
  | none => simp
  | some k =>
    rintro rfl
    exact NodeKind.varListPair_not_mem_tagged (NodeKind.mem_tagged_of_ofTag? hk)

/-! ### Kinds of a form -/

/-- The kinds of the elements with a form. -/
def kinds : Form → List NodeKind
  | .compound => [.compoundDef]
  | .words =>
    [.compoundName, .title, .qualifier, .label, .edgeLabel, .name, .reference, .scope, .header,
     .qualifiedName, .definition, .argsString, .bitfield, .read, .write, .attributes, .declName,
     .defName, .array, .xrefTitle, .primaryIndex, .secondaryIndex]
  | .compoundRef => [.baseCompoundRef, .derivedCompoundRef]
  | .includeRef => [.includes, .includedBy]
  | .innerRef =>
    [.innerModule, .innerDir, .innerFile, .innerClass, .innerConcept, .innerNamespace, .innerPage,
     .innerGroup]
  | .graph => [.incDepGraph, .invIncDepGraph, .inheritanceGraph, .collaborationGraph]
  | .graphNode => [.graphNode]
  | .graphLink => [.link]
  | .childNode => [.childNode]
  | .contents => [.tableOfContents]
  | .tocSect => [.tocSect]
  | .exportList => [.exportList]
  | .exportItem => [.exportItem]
  | .memberList => [.listOfAllMembers]
  | .listedMember | .sectionMember => [.member]
  | .sectionDef => [.sectionDef]
  | .member => [.memberDef]
  | .linkedText =>
    [.requiresClause, .initializer, .type, .exceptions, .qualifier, .defVal, .typeConstraint]
  | .templateParams => [.templateParamList]
  | .param => [.param]
  | .enumValue => [.enumValue]
  | .reimplementation => [.reimplements, .reimplementedBy]
  | .memberUse => [.references, .referencedBy]
  | .location => [.location]
  | .listing => [.programListing]
  | .codeLine => [.codeLine]
  | .highlight => [.highlight]
  | .space => [.sp]
  | .description =>
    [.briefDescription, .detailedDescription, .inbodyDescription, .description,
     .parameterDescription, .xrefDescription]
  | .sect level => (NodeKind.sect? level).toList
  | .internal _ => [.internal]
  | .title => [.title]
  | .para => [.para]
  | .markup =>
    [.bold, .s, .strike, .underline, .emphasis, .computerOutput, .subscript, .superscript, .center,
     .small, .cite, .del, .ins, .summary, .preformatted]
  | .literal =>
    [.manOnly, .xmlOnly, .rtfOnly, .latexOnly, .docbookOnly, .verbatim, .javadocLiteral,
     .javadocCode]
  | .htmlLiteral => [.htmlOnly]
  | .ulink => [.ulink]
  | .ref => [.ref]
  | .anchor => [.anchor]
  | .formula => [.formula]
  | .image => [.image]
  | .drawnDiagram => [.dot, .msc, .plantuml]
  | .fileDiagram => [.dotFile, .mscFile, .diaFile, .plantumlFile]
  | .emoji => [.emoji]
  | .mark => [.lineBreak, .hruler]
  | .itemizedList => [.itemizedList]
  | .orderedList => [.orderedList]
  | .listItem => [.listItem]
  | .simpleSect => [.simpleSect]
  | .variableList => [.variableList]
  | .variableEntry => [.varListEntry]
  | .term => [.term]
  | .heading => [.heading]
  | .tocList => [.tocList]
  | .tocItem => [.tocItem]
  | .language => [.language]
  | .parameterList => [.parameterList]
  | .parameterItem => [.parameterItem]
  | .parameterNames => [.parameterNameList]
  | .parameterType => [.parameterType]
  | .parameterName => [.parameterName]
  | .xrefSect => [.xrefSect]
  | .copyDoc => [.copyDoc]
  | .paraContainer => [.blockquote, .parblock]
  | .details => [.details]
  | .indexEntry => [.indexEntry]
  | .table => [.table]
  | .caption => [.caption]
  | .row => [.row]
  | .entry => [.entry]
  | .entity => [.entity]
  | .misplaced => []

/-- The form of a section is for the kind of its level. -/
theorem mem_levels_of_mem_kinds_sect {level : Nat} (hk : k ∈ (sect level).kinds) :
    (level, k) ∈ NodeKind.levels :=
  NodeKind.mem_levels_of_sect? (Option.mem_toList.mp hk)

/-- **A kind with a form of its own** is that of no other form. -/
theorem form?_of_mem_kinds (hk : k ∈ f.kinds) : k.form? = none ∨ k.form? = some f := by
  cases f with
  | sect level =>
    have hlevels : ∀ x ∈ NodeKind.levels, x.2.form? = none := by decide
    exact Or.inl (hlevels _ (mem_levels_of_mem_kinds_sect hk))
  | internal level =>
    obtain rfl := List.mem_singleton.mp hk
    exact Or.inl rfl
  | _ => revert k; decide

/-- A kind with a form of its own is one of no other form. -/
theorem eq_of_form? {g : Form} (hform : k.form? = some g) (hk : k ∈ f.kinds) : f = g := by
  rcases form?_of_mem_kinds hk with hnone | hsome
  · simp [hform] at hnone
  · exact Option.some.inj (hsome.symm.trans hform)

/-- A form is given to elements of its kinds, or refuses them all. -/
def Suits (f : Form) (tag : String) : Prop := f = .misplaced ∨ kindOf tag ∈ f.kinds

/-- A form suits the tags of its kinds. -/
theorem suits_of_tag_mem (hk : ∃ k ∈ f.kinds, k ∈ NodeKind.tagged ∧ k.tag = tag) : f.Suits tag := by
  obtain ⟨k, hk, htagged, rfl⟩ := hk
  rw [Suits, kindOf_tag htagged]
  exact Or.inr hk

/-- The form of an element in running text is for its kind, unless that may not stand there. -/
theorem mem_kinds_ofMarkupKind :
    ∀ k ∈ NodeKind.tagged, ofMarkupKind k = .misplaced ∨ k ∈ (ofMarkupKind k).kinds := by
  decide +kernel

theorem suits_ofMarkup (tag : String) : (ofMarkup tag).Suits tag := by
  rw [ofMarkup, Suits]
  cases hk : NodeKind.ofTag? tag with
  | none => exact Or.inr (by simp [kinds, kindOf, hk])
  | some k =>
    rw [kindOf, hk]
    exact mem_kinds_ofMarkupKind k (NodeKind.mem_tagged_of_ofTag? hk)

/-- The slot for sections of a level suits their tag. -/
theorem suits_of_mem_sections {level : Nat} (hslot : slot ∈ sections level) :
    slot.form.Suits slot.tag := by
  simp only [sections, List.mem_map, Option.mem_toList] at hslot
  obtain ⟨k, hk, rfl⟩ := hslot
  have htagged : ∀ x ∈ NodeKind.levels, x.2 ∈ NodeKind.tagged := by decide
  exact suits_of_tag_mem
    ⟨k, Option.mem_toList.mpr hk, htagged _ (NodeKind.mem_levels_of_sect? hk), rfl⟩

theorem form_of_mem_sections {level : Nat} (hslot : slot ∈ sections level) :
    slot.form = .sect level := by
  simp only [sections, List.mem_map] at hslot
  obtain ⟨k, -, rfl⟩ := hslot
  rfl

/-- **The form of every slot suits its tag.** -/
theorem suits_of_mem_slots (hslot : slot ∈ f.slots) : slot.form.Suits slot.tag := by
  have htitle : (once "title" .title).form.Suits "title" :=
    suits_of_tag_mem ⟨.title, by decide, by decide, rfl⟩
  have hpara : (many "para" .para).form.Suits "para" :=
    suits_of_tag_mem ⟨.para, by decide, by decide, rfl⟩
  have hinternal : ∀ level, (many "internal" (.internal level)).form.Suits "internal" :=
    fun level => suits_of_tag_mem ⟨.internal, by simp [many, kinds], by decide, rfl⟩
  cases f with
  | sect level =>
    simp only [slots, List.cons_append, List.nil_append, List.mem_cons] at hslot
    rcases hslot with rfl | rfl | rfl | hslot
    · exact htitle
    · exact hpara
    · exact hinternal _
    · exact suits_of_mem_sections hslot
  | internal level =>
    simp only [slots, List.mem_cons] at hslot
    rcases hslot with rfl | hslot
    · exact hpara
    · exact suits_of_mem_sections hslot
  -- all other forms have the same few slots at every level
  | _ => exact suits_of_tag_mem (by revert slot; decide)

/-- All tags are one to running text, which takes any of them. -/
theorem slot_eq_of_takesMarkup (hf : f.takesMarkup = true) (hslot : f.slot? tag = some slot) :
    slot = many tag (ofMarkup tag) := by
  simpa [slot?, hf] using hslot.symm

/-- Where no running text may stand, children have listed slots, which are found by their tags. -/
theorem mem_slots_of_slot? (hf : f.takesMarkup = false) (hslot : f.slot? tag = some slot) :
    slot ∈ f.slots ∧ slot.tag = tag := by
  have hfind : f.slots.find? (·.tag == tag) = some slot := by simpa [slot?, hf] using hslot
  exact ⟨List.mem_of_find?_eq_some hfind, by simpa using List.find?_some hfind⟩

/-- **Every form is given only to elements of its kinds.** -/
theorem suits_of_slot? (hslot : f.slot? tag = some slot) : slot.form.Suits tag := by
  cases hf : f.takesMarkup with
  | true =>
    rw [slot_eq_of_takesMarkup hf hslot]
    exact suits_ofMarkup tag
  | false =>
    obtain ⟨hmem, rfl⟩ := mem_slots_of_slot? hf hslot
    exact suits_of_mem_slots hmem

/-- Only in running text may characters stand, or what stands nowhere. -/
theorem form_of_mem_slots (hslot : slot ∈ f.slots) :
    slot.form ≠ .entity ∧ slot.form ≠ .misplaced := by
  cases f with
  | sect level =>
    simp only [slots, List.cons_append, List.nil_append, List.mem_cons] at hslot
    rcases hslot with rfl | rfl | rfl | hslot
    · simp [once]
    · simp [many]
    · simp [many]
    · simp [form_of_mem_sections hslot]
  | internal level =>
    simp only [slots, List.mem_cons] at hslot
    rcases hslot with rfl | hslot
    · simp [many]
    · simp [form_of_mem_sections hslot]
  -- all other forms have the same few slots at every level
  | _ => revert slot; decide

/-- Tags of slots for one child are those of kinds. -/
theorem kindOf_ne_entity_of_once (hslot : f.slot? tag = some slot) (honce : slot.once = true) :
    kindOf tag ≠ .entity := by
  cases hf : f.takesMarkup with
  | true =>
    rw [slot_eq_of_takesMarkup hf hslot] at honce
    cases honce
  | false =>
    obtain ⟨hmem, -⟩ := mem_slots_of_slot? hf hslot
    obtain ⟨hentity, hmisplaced⟩ := form_of_mem_slots hmem
    intro hkind
    have hkinds := (suits_of_slot? hslot).resolve_left hmisplaced
    exact hentity (eq_of_form? rfl (hkind ▸ hkinds))

end Form

end DocGraph
