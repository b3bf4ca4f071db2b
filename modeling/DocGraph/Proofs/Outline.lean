import DocGraph.Proofs.Building

namespace DocGraph

/-!
# Outlines

What a compound says is that of its file: elements, their names and their order, and every character
that is more than indentation.

* `NodeKind.keepsBlanks` — the kinds of elements in which blank character data counts;
* `Element.outline`, `Node.outline` — names, order and character data, of an element and of a node;
* `Element.isMerged` — character data is not divided;
* `outline_pairs` — the pairs of a variable list hold all of its children;
* `outline_buildCompound` — the main statement: the outline of a compound is that of its element.
-/

/-! ### Blank character data -/

/-- Whether blank character data counts in elements of a kind.  It does within running text and
in elements that hold nothing but text; elsewhere it is indentation. -/
def NodeKind.keepsBlanks : NodeKind → Bool
  -- Elements that hold nothing but text
  | .compoundName | .title | .qualifier | .label | .edgeLabel | .name | .reference | .scope
  | .header | .qualifiedName | .definition | .argsString | .bitfield | .read | .write
  | .attributes | .declName | .defName | .array | .xrefTitle | .primaryIndex | .secondaryIndex
  | .baseCompoundRef | .derivedCompoundRef | .includes | .includedBy | .innerModule | .innerDir
  | .innerFile | .innerClass | .innerConcept | .innerNamespace | .innerPage | .innerGroup
  | .exportItem | .reimplements | .reimplementedBy | .references | .referencedBy | .htmlOnly
  | .manOnly | .xmlOnly | .rtfOnly | .latexOnly | .docbookOnly | .verbatim | .javadocLiteral
  | .javadocCode | .formula | .dot | .msc | .plantuml => true
  -- Running text
  | .requiresClause | .initializer | .type | .exceptions | .defVal | .typeConstraint | .highlight
  | .para | .bold | .s | .strike | .underline | .emphasis | .computerOutput | .subscript
  | .superscript | .center | .small | .cite | .del | .ins | .summary | .preformatted | .ulink
  | .ref | .image | .dotFile | .mscFile | .diaFile | .plantumlFile | .term | .heading | .tocItem
  | .parameterType | .parameterName | .caption => true
  | _ => false

/-- Whether a content model keeps blank character data. -/
def Form.ContentModel.keepsBlanks : Form.ContentModel → Bool
  | .mixed | .verbatim => true
  | .indented | .elements => false

/-- **The kinds in which blanks count** are those of the forms that keep them. -/
theorem Form.keepsBlanks_model (f : Form) :
    ∀ k ∈ f.kinds, f.model.keepsBlanks = k.keepsBlanks := by
  cases f with
  | sect level =>
    intro k hk
    have hblanks : ∀ x ∈ NodeKind.levels, false = x.2.keepsBlanks := by decide
    exact hblanks _ (mem_levels_of_mem_kinds_sect hk)
  | internal level => simp only [kinds, List.mem_singleton, forall_eq]; rfl
  | _ => decide

/-- Whether character data of an element that may keep blanks is left out. -/
def isLeftOut (keepsBlanks : Bool) (s : String) : Bool :=
  s.isEmpty || (isBlankText s && !keepsBlanks)

/-- Where only elements may stand, no character data is kept, and only blanks are left out. -/
theorem Form.ContentModel.of_keeps_elements {s : String} {kept : Bool}
    (hkept : ContentModel.elements.keeps s = .ok kept) : kept = false ∧ isBlankText s = true := by
  by_cases hblank : isBlankText s = true
  · simp only [keeps, hblank, if_true] at hkept
    exact ⟨(Except.ok.inj hkept).symm, hblank⟩
  · simp [keeps, hblank] at hkept

/-- A content model leaves out nothing else. -/
theorem Form.ContentModel.isLeftOut_eq {m : Form.ContentModel} {s : String} {kept : Bool}
    (hkept : m.keeps s = .ok kept) : isLeftOut m.keepsBlanks s = (s.isEmpty || !kept) := by
  cases m with
  | mixed | verbatim | indented =>
    obtain rfl := Except.ok.inj hkept
    simp [isLeftOut, keepsBlanks]
  | elements =>
    obtain ⟨rfl, hblank⟩ := of_keeps_elements hkept
    simp [isLeftOut, keepsBlanks, hblank]

/-! ### Outlines -/

/-- Whether a content begins with character data. -/
def Content.beginsWithText {α : Type} : List (Content α) → Bool
  | .text _ :: _ => true
  | _ => false

namespace Element

mutual

/-- Whether no character data stands next to other character data, here and in everything below. -/
def isMerged : Element → Bool
  | ⟨_, _, pieces⟩ => isMergedContent pieces

/-- Whether no character data of a content stands next to other character data. -/
def isMergedContent : List (Content Element) → Bool
  | [] => true
  | .text _ :: rest => !Content.beginsWithText rest && isMergedContent rest
  | .child e :: rest => e.isMerged && isMergedContent rest

end

mutual

/-- An element without its attributes and without character data that is left out. -/
def outline : Element → Element
  | ⟨name, _, pieces⟩ =>
    ⟨name, [], outlineContent (Form.kindOf name).keepsBlanks pieces⟩

/-- The content of an outline. -/
def outlineContent (keepsBlanks : Bool) : List (Content Element) → List (Content Element)
  | [] => []
  | .text s :: rest =>
    if isLeftOut keepsBlanks s then outlineContent keepsBlanks rest
    else .text s :: outlineContent keepsBlanks rest
  | .child e :: rest => .child e.outline :: outlineContent keepsBlanks rest

end

end Element

namespace Node

mutual

/-- The element that a node stands for, without attributes. -/
def outline : Node → Element
  | ⟨kind, data, content, hint⟩ =>
    ⟨elementName ⟨kind, data, content, hint⟩, [], outlineContent content⟩

/-- The elements and the character data that a content stands for.  A pair of a variable list stands
for its two children. -/
def outlineContent : List (Content Node) → List (Content Element)
  | [] => []
  | .text s :: rest =>
    if s.isEmpty then outlineContent rest else .text s :: outlineContent rest
  | .child ⟨.varListPair, _, [.child term, .child definition], _⟩ :: rest =>
    .child term.outline :: .child definition.outline :: outlineContent rest
  | .child n :: rest => .child n.outline :: outlineContent rest

end

/-- Character data counts unless it is empty. -/
theorem outlineContent_text (s : String) (rest : List (Content Node)) :
    outlineContent (.text s :: rest)
      = if s.isEmpty then outlineContent rest else .text s :: outlineContent rest := by
  rw [outlineContent]

/-- A node that is no pair stands for one element. -/
theorem outlineContent_child {n : Node} (hn : n.kind ≠ .varListPair) (rest : List (Content Node)) :
    outlineContent (.child n :: rest) = .child n.outline :: outlineContent rest := by
  rw [outlineContent]
  rintro data term definition hint rfl
  exact hn rfl

end Node

/-! ### Names -/

namespace Form

variable {f : Form} {e : Element} {content : List (Content Node)}

/-- **A node has the name of its element.** -/
theorem elementName_node (hkind : kindOf e.name ∈ f.kinds) :
    (f.node e content).elementName = e.name := by
  by_cases hf : f = .entity
  · subst hf
    rfl
  · have htag : kindOf e.name ≠ .entity := fun hentity =>
      hf (eq_of_form? rfl (hentity ▸ hkind))
    rw [Node.elementName]
    split
    -- data of an entity comes of the entity form only
    case h_1 name text hdata =>
      have hform := form_of_dataOf f e content
      rw [show f.dataOf e content = .entity name text from hdata] at hform
      exact absurd hform hf
    case h_2 => exact tag_kindOf htag

end Form

/-! ### Variable lists -/

/-- Nothing but terms and definitions in turn, the first a definition if a term is pending. -/
def InTurn : Bool → List (Content Node) → Prop
  | _, [] => True
  | false, .child n :: rest => n.kind = .varListEntry ∧ InTurn true rest
  | true, .child n :: rest => n.kind = .listItem ∧ InTurn false rest
  | _, .text _ :: _ => False

/-- **Pairs hold all terms and definitions**, if the last term has a definition. -/
theorem outline_pairs : ∀ content : List (Content Node), InTurn false content →
    (Content.children content).getLast?.map (·.kind) ≠ some .varListEntry →
    Node.outlineContent ((pairs (Content.children content)).map .child)
      = Node.outlineContent content := by
  intro content hturn hlast
  -- By twos, as the pairs are made; a term left over is what `hlast` excludes.
  match content with
  | [] => rfl
  | .text _ :: _ => exact hturn.elim
  | [.child term] => exact absurd (congrArg some hturn.1) hlast
  | .child _ :: .text _ :: _ => exact hturn.2.elim
  | .child term :: .child definition :: rest =>
    obtain ⟨hterm, hdefinition, hrest⟩ := hturn
    have hlast : (Content.children rest).getLast?.map (·.kind) ≠ some .varListEntry := by
      intro hkind
      obtain ⟨n, hn, hkind⟩ := Option.map_eq_some_iff.mp hkind
      refine hlast ?_
      rw [Content.children_cons_child, Content.children_cons_child, List.getLast?_cons_cons,
        List.getLast?_cons, hn, Option.getD_some, Option.map_some, hkind]
    have hpairs : pairs (Content.children (.child term :: .child definition :: rest))
        = { kind := .varListPair, content := [.child term, .child definition] }
          :: pairs (Content.children rest) := rfl
    rw [hpairs, List.map_cons, Node.outlineContent, outline_pairs rest hrest hlast,
      Node.outlineContent_child (by simp [hterm]),
      Node.outlineContent_child (by simp [hdefinition])]

namespace Form

variable {f : Form} {e : Element} {content : List (Content Node)}

/-- Arranging a content does not change what it says. -/
theorem outlineContent_arrange (hclosing : f.checkClosing e content = .ok ())
    (hturn : f = .variableList → InTurn false content) :
    Node.outlineContent (f.arrange content) = Node.outlineContent content := by
  rw [arrange]
  split
  case isTrue hf =>
    subst hf
    refine outline_pairs content (hturn rfl) fun hlast => ?_
    have hpaired := checkClosing_eq_ok_iff.mp hclosing .paired (by decide)
    simp [Closing.check, hlast] at hpaired
  case isFalse => rfl

/-- A variable list holds terms and definitions. -/
theorem tag_eq_of_slot?_variableList {tag : String} {slot : Slot}
    (hslot : variableList.slot? tag = some slot) :
    tag = NodeKind.varListEntry.tag ∨ tag = NodeKind.listItem.tag := by
  obtain ⟨hmem, htag⟩ := mem_slots_of_slot? rfl hslot
  simp only [slots, List.mem_cons, List.not_mem_nil, or_false] at hmem
  rcases hmem with rfl | rfl
  · exact Or.inl htag.symm
  · exact Or.inr htag.symm

end Form

/-! ### Compounds -/

/-- Character data stands by itself where none follows. -/
theorem Content.consText_eq {α : Type} {s : String} {content : List (Content α)}
    (hcontent : Content.beginsWithText content = false) :
    Content.consText s content = .text s :: content := by
  match content with
  | [] => rfl
  | .text _ :: _ => simp [beginsWithText] at hcontent
  | .child _ :: _ => rfl

/-- What the content of a node keeps of that of its element. -/
structure Mirrors (f : Form) (before : List NodeKind) (pieces : List (Content Element))
    (content : List (Content Node)) : Prop where
  outline : Element.isMergedContent pieces = true →
    Node.outlineContent content = Element.outlineContent f.model.keepsBlanks pieces
  beginsWithText : Content.beginsWithText content = true → Content.beginsWithText pieces = true
  inTurn : f = .variableList → InTurn (before.head? = some .varListEntry) content

namespace Mirrors

variable {f : Form} {before : List NodeKind} {pieces rest : List (Content Element)}
variable {others : List (Content Node)} {e : Element} {n : Node} {slot : Form.Slot}

theorem nil (f : Form) (before : List NodeKind) : Mirrors f before [] [] where
  outline _ := by rw [Node.outlineContent, Element.outlineContent]
  beginsWithText htext := htext
  inTurn _ := by cases decide (before.head? = some .varListEntry) <;> trivial

/-- **Character data** is kept as it is, or leaves nothing in the outline of the element either. -/
theorem text {s : String} {kept : Bool} (hkept : f.model.keeps s = .ok kept)
    (hothers : Mirrors f before rest others) :
    Mirrors f before (.text s :: rest) (if kept then Content.consText s others else others) where
  outline hmerged := by
    simp only [Element.isMergedContent, Bool.and_eq_true, Bool.not_eq_true'] at hmerged
    have hrest : Content.beginsWithText others = false :=
      Bool.eq_false_iff.mpr fun htext => by simp [hothers.beginsWithText htext] at hmerged
    rw [Element.outlineContent, Form.ContentModel.isLeftOut_eq hkept, ← hothers.outline hmerged.2]
    cases kept with
    | false => simp
    | true =>
      -- what follows does not begin with character data, so nothing is joined
      rw [if_pos rfl, Content.consText_eq hrest, Node.outlineContent_text]
      simp
  beginsWithText _ := rfl
  inTurn := by
    rintro rfl
    have hdropped : kept = false := (Form.ContentModel.of_keeps_elements hkept).1
    rw [hdropped]
    exact hothers.inTurn rfl

/-- Of terms and definitions, the one comes where the other has come before. -/
theorem inTurn_child (hplace : Form.variableList.place before e.name = .ok slot)
    (hkind : n.kind = Form.kindOf e.name)
    (hrest : InTurn ((n.kind :: before).head? = some .varListEntry) others) :
    InTurn (before.head? = some .varListEntry) (.child n :: others) := by
  obtain ⟨hslot, hturn⟩ := Form.place_eq_ok_iff.mp hplace
  -- A term is placed when none is pending and a definition when one is, which is taking turns.
  rcases Form.tag_eq_of_slot?_variableList hslot with htag | htag
  · have hterm : n.kind = .varListEntry := by
      rw [hkind, htag, Form.kindOf_tag (by decide)]
    have hfree := (hturn rfl).1 htag
    simp only [hterm, List.head?_cons, decide_true] at hrest
    simp only [hfree, decide_false]
    exact ⟨hterm, hrest⟩
  · have hdefinition : n.kind = .listItem := by
      rw [hkind, htag, Form.kindOf_tag (by decide)]
    have hpending := (hturn rfl).2 htag
    simp only [hdefinition, List.head?_cons] at hrest
    simp only [hpending, decide_true]
    exact ⟨hdefinition, hrest⟩

/-- **A child** has the outline of its element, and stands where that does. -/
theorem child (hplace : f.place before e.name = .ok slot)
    (hkind : n.kind = Form.kindOf e.name) (hn : e.isMerged = true → n.outline = e.outline)
    (hothers : Mirrors f (n.kind :: before) rest others) :
    Mirrors f before (.child e :: rest) (.child n :: others) where
  outline hmerged := by
    have hpair : n.kind ≠ .varListPair := hkind ▸ Form.kindOf_ne_varListPair e.name
    simp only [Element.isMergedContent, Bool.and_eq_true] at hmerged
    rw [Node.outlineContent_child hpair, Element.outlineContent, hn hmerged.1,
      hothers.outline hmerged.2]
  beginsWithText htext := by simp [Content.beginsWithText] at htext
  inTurn := by
    rintro rfl
    exact inTurn_child hplace hkind (hothers.inTurn rfl)

/-- **A node** has the outline of its element if its content mirrors that of the element. -/
theorem outline_node (hkind : Form.kindOf e.name ∈ f.kinds)
    (hclosing : f.checkClosing e others = .ok ()) (hcontent : Mirrors f [] e.content others)
    (hmerged : e.isMerged = true) : (f.node e others).outline = e.outline := by
  obtain ⟨name, attributes, pieces⟩ := e
  rw [Element.isMerged] at hmerged
  have hname : (f.node ⟨name, attributes, pieces⟩ others).elementName = name :=
    Form.elementName_node hkind
  have harranged : Node.outlineContent (f.arrange others)
      = Element.outlineContent (Form.kindOf name).keepsBlanks pieces := by
    rw [Form.outlineContent_arrange hclosing hcontent.inTurn, hcontent.outline hmerged,
      f.keepsBlanks_model _ hkind]
  rw [Element.outline, ← harranged, Form.node, Node.outline]
  exact congrArg (Element.mk · [] _) hname

end Mirrors

/-- The outline is preserved by every step of building. -/
theorem preserved_outline : Form.Preserved
    (fun _ e n => n.kind = Form.kindOf e.name ∧ (e.isMerged = true → n.outline = e.outline))
    Mirrors where
  node _ _ _ hkind _ _ hclosing hcontent := ⟨rfl, hcontent.outline_node hkind hclosing⟩
  nil := Mirrors.nil
  text _ _ _ _ _ _ hkept hothers := hothers.text hkept
  child _ _ _ _ _ _ _ hplace hn _ hothers := hothers.child hplace hn.1 hn.2

/-- **The outline of a compound** is that of the element it is built of. -/
theorem outline_buildCompound {e : Element} {n : Node} (he : e.isMerged = true)
    (hn : buildCompound e = .ok n) : n.outline = e.outline :=
  (buildCompound_induction preserved_outline hn).2 he

/-- A class with some indentation. -/
def indentedClass : Element where
  name := "compounddef"
  attributes := [⟨"id", "classA"⟩, ⟨"kind", "class"⟩]
  content :=
    [.text "\n  ", .child { name := "compoundname", content := [.text " A"] }, .text "\n"]

/-- The indentation is left out, the blank in the name is not. -/
theorem outline_buildCompound_indented :
    indentedClass.isMerged = true ∧ ∃ n, buildCompound indentedClass = .ok n
      ∧ n.outline = ⟨"compounddef", [], [.child ⟨"compoundname", [], [.text " A"]⟩]⟩ := by
  have hmerged : indentedClass.isMerged = true := by decide
  have hok : (buildCompound indentedClass).toBool = true := by decide +kernel
  refine ⟨hmerged, ?_⟩
  cases hn : buildCompound indentedClass with
  | error v => simp [hn, Except.toBool] at hok
  | ok n => exact ⟨n, rfl, outline_buildCompound hmerged hn⟩

end DocGraph
