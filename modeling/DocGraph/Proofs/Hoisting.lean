import DocGraph.Proofs.Places

namespace DocGraph

/-!
# Data that keeps up with content

What data takes from children as they are pushed is what a reading of the content finds, at every
step of building:

* `placeOf?_append_child`, `placesOf_append_child` and others — what one more child changes in a
  reading.  Character data changes nothing (`placeOf?_append_text` and others);
* `Node.IsFirstIn` — a node that is no second one where there may be only one;
* `Pushed.places_placesOf`, `Node.IsFirstIn.slot_placeOf?` and others — each way of taking a value
  keeps up with a reading;
* `NodeData.readOff` — data with all that it says of children read off a content;
* `NodeData.take_readOff`, `NodeData.readOff_appendText` — **data that agrees with a content agrees
  with what the content becomes**, by a child or by character data;
* `Form.dataOf` — the data of an element with this form, from its finished content.
-/

/-! ### What one more piece changes -/

section

variable {content : List (Content Node)} {kind : NodeKind} {kinds : List NodeKind} {n : Node}
variable {α : Type} {get : NodeData → Option α}

/-- One more child stands behind those of its kind. -/
theorem ofKind_append_child :
    ofKind kind (content ++ [.child n])
      = if n.kind = kind then ofKind kind content ++ [n] else ofKind kind content := by
  rw [ofKind, Content.children_append, List.filter_append]
  by_cases hkind : n.kind = kind
  · simp [hkind, ofKind, Content.children, Content.child?]
  · simp [hkind, ofKind, Content.children, Content.child?]

/-- A child is the first of its kind, or comes after the first. -/
theorem placeOf?_append_child :
    placeOf? kind (content ++ [.child n])
      = (placeOf? kind content).or (if n.kind = kind then some content.length else none) := by
  rw [placeOf?, List.findIdx?_append]
  by_cases hkind : n.kind = kind
  · simp [placeOf?, hkind, Content.hasKind, List.findIdx?_cons]
  · simp [placeOf?, hkind, Content.hasKind, List.findIdx?_cons]

/-- One more piece is at the next place. -/
theorem placesFrom_append (start : Nat) (c : Content Node) :
    placesFrom start kinds (content ++ [c])
      = placesFrom start kinds content
        ++ if kinds.any (c.hasKind ·) then [start + content.length] else [] := by
  induction content generalizing start with
  | nil => simp [placesFrom]
  | cons c' rest ih =>
    rw [List.cons_append, placesFrom, placesFrom, ih (start + 1), List.length_cons]
    have hplace : start + 1 + rest.length = start + (rest.length + 1) := by omega
    rw [hplace]
    split <;> simp

/-- A child of these kinds adds its place. -/
theorem placesOf_append_child :
    placesOf kinds (content ++ [.child n])
      = if n.kind ∈ kinds then placesOf kinds content ++ [content.length]
        else placesOf kinds content := by
  have hany : kinds.any ((Content.child n).hasKind ·) = decide (n.kind ∈ kinds) := by
    rw [Bool.eq_iff_iff, any_hasKind_iff, decide_eq_true_eq]
    simp [Content.child?]
  rw [placesOf, placesFrom_append, hany]
  by_cases hkind : n.kind ∈ kinds <;> simp [hkind, placesOf]

/-- A child replaces the last text of its kind. -/
theorem lastText?_append_child :
    lastText? kind (content ++ [.child n])
      = if n.kind = kind then some n.text else lastText? kind content := by
  rw [lastText?, ofKind_append_child]
  split <;> simp [lastText?]

/-- A child gives the first text of its kind if there is none. -/
theorem firstText?_append_child :
    firstText? kind (content ++ [.child n])
      = if n.kind = kind then some ((firstText? kind content).getD n.text)
        else firstText? kind content := by
  rw [firstText?, ofKind_append_child]
  split
  · cases hfirst : ofKind kind content <;> simp [firstText?, hfirst]
  · rfl

/-- A child of these kinds adds its data. -/
theorem dataOfKinds_append_child :
    dataOfKinds kinds get (content ++ [.child n])
      = if n.kind ∈ kinds then dataOfKinds kinds get content ++ (get n.data).toList
        else dataOfKinds kinds get content := by
  rw [dataOfKinds, Content.children_append, List.filter_append, List.filterMap_append]
  by_cases hkind : n.kind ∈ kinds
  · cases hdata : get n.data <;>
      simp [hkind, hdata, dataOfKinds, Content.children, Content.child?]
  · simp [hkind, dataOfKinds, Content.children, Content.child?]

/-- A child with data of the sort replaces the last data of its kind. -/
theorem lastData?_append_child :
    lastData? kind get (content ++ [.child n])
      = if n.kind = kind then (get n.data).or (lastData? kind get content)
        else lastData? kind get content := by
  rw [lastData?, ofKind_append_child]
  split
  · cases hdata : get n.data <;> simp [hdata, lastData?, List.filterMap_append]
  · rfl

end

section

variable {content : List (Content Node)} {kind : NodeKind} {kinds : List NodeKind} {s : String}

theorem children_append_text :
    Content.children (content ++ [.text s]) = Content.children content := by
  rw [Content.children_append, Content.children_cons_text, Content.children_nil, List.append_nil]

/-- Character data at the end changes nothing in a reading of children. -/
theorem ofKind_append_text : ofKind kind (content ++ [.text s]) = ofKind kind content := by
  rw [ofKind, children_append_text, ofKind]

theorem placeOf?_append_text : placeOf? kind (content ++ [.text s]) = placeOf? kind content := by
  rw [placeOf?, List.findIdx?_append]
  simp [placeOf?, Content.hasKind, List.findIdx?_cons]

theorem placesOf_append_text : placesOf kinds (content ++ [.text s]) = placesOf kinds content := by
  rw [placesOf, placesFrom_append]
  simp [placesOf, Content.hasKind]

end

/-! ### Ways of taking a value -/

namespace Pushed

variable {content : List (Content Node)} {kind : NodeKind} {kinds : List NodeKind} {n : Node}
variable {α : Type}

/-- Places are added at the end, in the order of children. -/
theorem places_placesOf :
    (mk n content.length).places kinds (placesOf kinds content)
      = placesOf kinds (content ++ [.child n]) := placesOf_append_child.symm

/-- The last text wins. -/
theorem text_lastText? :
    (mk n content.length).text kind (lastText? kind content)
      = lastText? kind (content ++ [.child n]) := lastText?_append_child.symm

theorem name_lastText? :
    (mk n content.length).name kind ((lastText? kind content).getD "")
      = (lastText? kind (content ++ [.child n])).getD "" := by
  rw [name, lastText?_append_child]
  split <;> rfl

theorem firstText_firstText? :
    (mk n content.length).firstText kind (firstText? kind content)
      = firstText? kind (content ++ [.child n]) := firstText?_append_child.symm

/-- Data is gathered in the order of children. -/
theorem gather_dataOfKinds {get : NodeData → Option α} :
    (mk n content.length).gather kinds get (dataOfKinds kinds get content)
      = dataOfKinds kinds get (content ++ [.child n]) := dataOfKinds_append_child.symm

theorem last_lastData? {get : NodeData → Option α} :
    (mk n content.length).last kind get (lastData? kind get content)
      = lastData? kind get (content ++ [.child n]) := lastData?_append_child.symm

end Pushed

/-- A node is the first of its kind after a content, if its kind is one of these. -/
def Node.IsFirstIn (n : Node) (kinds : List NodeKind) (content : List (Content Node)) : Prop :=
  n.kind ∈ kinds → ofKind n.kind content = []

namespace Node.IsFirstIn

variable {content : List (Content Node)} {kind : NodeKind} {kinds : List NodeKind} {n : Node}

/-- The place of a child that does not come again is the first of its kind. -/
theorem slot_placeOf? (h : n.IsFirstIn kinds content) (hkind : kind ∈ kinds) :
    (Pushed.mk n content.length).slot kind (placeOf? kind content)
      = placeOf? kind (content ++ [.child n]) := by
  rw [Pushed.slot, placeOf?_append_child]
  by_cases hn : n.kind = kind
  · subst hn
    rw [if_pos rfl, if_pos rfl, placeOf?_eq_none_iff.mpr (h hkind), Option.none_or]
  · rw [if_neg hn, if_neg hn, Option.or_none]

/-- Its text is that of the first of its kind, though it would replace another. -/
theorem text_firstText? (h : n.IsFirstIn kinds content) (hkind : kind ∈ kinds) :
    (Pushed.mk n content.length).text kind (firstText? kind content)
      = firstText? kind (content ++ [.child n]) := by
  rw [Pushed.text, firstText?_append_child]
  by_cases hn : n.kind = kind
  · subst hn
    have hnone : firstText? n.kind content = none := by rw [firstText?, h hkind]; rfl
    rw [if_pos rfl, if_pos rfl, hnone, Option.getD_none]
  · rw [if_neg hn, if_neg hn]

theorem name_firstText? (h : n.IsFirstIn kinds content) (hkind : kind ∈ kinds) :
    (Pushed.mk n content.length).name kind ((firstText? kind content).getD "")
      = (firstText? kind (content ++ [.child n])).getD "" := by
  rw [← h.text_firstText? hkind, Pushed.name, Pushed.text]
  split <;> rfl

end Node.IsFirstIn

/-! ### Data read off a content -/

section

variable {content : List (Content Node)} {n : Node}

/-- The data of a compound, read off a content. -/
def CompoundDef.readOff (d : CompoundDef) (content : List (Content Node)) : CompoundDef :=
  { d with
    name := (firstText? .compoundName content).getD ""
    title := firstText? .title content
    bases := dataOfKinds [.baseCompoundRef] (·.compoundRef?) content
    derived := dataOfKinds [.derivedCompoundRef] (·.compoundRef?) content
    inner := dataOfKinds NodeKind.inner (·.inner?) content
    brief := placeOf? .briefDescription content
    detailed := placeOf? .detailedDescription content
    templateParams := placeOf? .templateParamList content
    sections := placesOf [.sectionDef] content
    contents := placeOf? .tableOfContents content
    listing := placeOf? .programListing content
    location := lastData? .location (·.location?) content }

/-- The kinds of children that a compound may have once. -/
def CompoundDef.heldOnce : List NodeKind :=
  [.compoundName, .title, .briefDescription, .detailedDescription, .templateParamList,
   .tableOfContents, .programListing]

/-- **What a compound has taken** from its children so far is what they say so far. -/
theorem CompoundDef.take_readOff (d : CompoundDef) (h : n.IsFirstIn heldOnce content) :
    (d.readOff content).take ⟨n, content.length⟩ = d.readOff (content ++ [.child n]) := by
  simp (disch := decide) only [take, readOff, h.name_firstText?, h.text_firstText?,
    h.slot_placeOf?, Pushed.gather_dataOfKinds, Pushed.places_placesOf, Pushed.last_lastData?]

/-- The data of a group of members, read off a content. -/
def SectionDef.readOff (d : SectionDef) (content : List (Content Node)) : SectionDef :=
  { d with
    header := firstText? .header content
    description := placeOf? .description content
    members := placesOf [.memberDef, .member] content }

/-- The kinds of children that a group of members may have once, and of which its data holds the
place. -/
def SectionDef.heldOnce : List NodeKind := [.description]

theorem SectionDef.take_readOff (d : SectionDef) (h : n.IsFirstIn heldOnce content) :
    (d.readOff content).take ⟨n, content.length⟩ = d.readOff (content ++ [.child n]) := by
  simp (disch := decide) only [take, readOff, Pushed.firstText_firstText?, h.slot_placeOf?,
    Pushed.places_placesOf]

/-- The data of a member listed outside its definition, read off a content. -/
def MemberRef.readOff (d : MemberRef) (content : List (Content Node)) : MemberRef :=
  { d with
    scope := lastText? .scope content
    name := (lastText? .name content).getD "" }

/-- A listed member takes the last texts, so any child may come again. -/
theorem MemberRef.take_readOff (d : MemberRef) :
    (d.readOff content).take ⟨n, content.length⟩ = d.readOff (content ++ [.child n]) := by
  simp only [take, readOff, Pushed.text_lastText?, Pushed.name_lastText?]

/-- The data of a member, read off a content. -/
def MemberDef.readOff (d : MemberDef) (content : List (Content Node)) : MemberDef :=
  { d with
    name := (lastText? .name content).getD ""
    qualifiedName := lastText? .qualifiedName content
    definition := lastText? .definition content
    argsString := lastText? .argsString content
    bitfield := lastText? .bitfield content
    read := lastText? .read content
    write := lastText? .write content
    type := placeOf? .type content
    templateParams := placeOf? .templateParamList content
    initializer := placeOf? .initializer content
    exceptions := placeOf? .exceptions content
    params := placesOf [.param] content
    enumValues := placesOf [.enumValue] content
    brief := placeOf? .briefDescription content
    detailed := placeOf? .detailedDescription content
    inbody := placeOf? .inbodyDescription content
    reimplements := dataOfKinds [.reimplements] (·.reimplement?) content
    reimplementedBy := dataOfKinds [.reimplementedBy] (·.reimplement?) content
    location := lastData? .location (·.location?) content }

/-- The kinds of children that a member may have once. -/
def MemberDef.heldOnce : List NodeKind :=
  [.type, .templateParamList, .initializer, .exceptions, .briefDescription, .detailedDescription,
   .inbodyDescription]

/-- A member takes the last texts, but places only of children that do not come again. -/
theorem MemberDef.take_readOff (d : MemberDef) (h : n.IsFirstIn heldOnce content) :
    (d.readOff content).take ⟨n, content.length⟩ = d.readOff (content ++ [.child n]) := by
  simp (disch := decide) only [take, readOff, Pushed.name_lastText?, Pushed.text_lastText?,
    h.slot_placeOf?, Pushed.places_placesOf, Pushed.gather_dataOfKinds, Pushed.last_lastData?]

/-- The data of a value of an enumeration, read off a content. -/
def EnumValue.readOff (d : EnumValue) (content : List (Content Node)) : EnumValue :=
  { d with
    name := (lastText? .name content).getD ""
    initializer := placeOf? .initializer content
    brief := placeOf? .briefDescription content
    detailed := placeOf? .detailedDescription content }

/-- The kinds of children that a value of an enumeration may have once. -/
def EnumValue.heldOnce : List NodeKind := [.initializer, .briefDescription, .detailedDescription]

theorem EnumValue.take_readOff (d : EnumValue) (h : n.IsFirstIn heldOnce content) :
    (d.readOff content).take ⟨n, content.length⟩ = d.readOff (content ++ [.child n]) := by
  simp (disch := decide) only [take, readOff, Pushed.name_lastText?, h.slot_placeOf?]

/-- The data of a parameter, read off a content. -/
def Param.readOff (content : List (Content Node)) : Param where
  attributes := lastText? .attributes content
  declName := lastText? .declName content
  defName := lastText? .defName content
  array := lastText? .array content
  type := placeOf? .type content
  defVal := placeOf? .defVal content
  typeConstraint := placeOf? .typeConstraint content
  brief := placeOf? .briefDescription content

/-- The kinds of children that a parameter may have once. -/
def Param.heldOnce : List NodeKind := [.type, .defVal, .typeConstraint, .briefDescription]

theorem Param.take_readOff (h : n.IsFirstIn heldOnce content) :
    (readOff content).take ⟨n, content.length⟩ = readOff (content ++ [.child n]) := by
  simp (disch := decide) only [take, readOff, Pushed.text_lastText?, h.slot_placeOf?]

end

namespace NodeData

/-- Data with all that it says of children read off a content. -/
def readOff (data : NodeData) (content : List (Content Node)) : NodeData :=
  match data with
  | .compound d => .compound (d.readOff content)
  | .sectionDef d => .sectionDef (d.readOff content)
  | .memberRef d => .memberRef (d.readOff content)
  | .member d => .member (d.readOff content)
  | .enumValue d => .enumValue (d.readOff content)
  | .param _ => .param (.readOff content)
  | .tocSect _ _ =>
    .tocSect ((firstText? .name content).getD "") ((firstText? .reference content).getD "")
  | .sect level id _ => .sect level id (placeOf? .title content)
  | .simpleSect kind _ => .simpleSect kind (placeOf? .title content)
  | .table d => .table { d with caption := placeOf? .caption content }
  | .xrefSect id _ => .xrefSect id (firstText? .xrefTitle content)
  | .description _ => .description (placeOf? .title content)
  | _ => data

/-- The kinds of children that may not come again, where data holds something of them. -/
def heldOnce : NodeData → List NodeKind
  | .compound _ => CompoundDef.heldOnce
  | .sectionDef _ => SectionDef.heldOnce
  | .member _ => MemberDef.heldOnce
  | .enumValue _ => EnumValue.heldOnce
  | .param _ => Param.heldOnce
  | .tocSect _ _ => [.name, .reference]
  | .sect _ _ _ | .simpleSect _ _ | .description _ => [.title]
  | .table _ => [.caption]
  | _ => []

variable {content : List (Content Node)} {n : Node}

/-- **Data keeps up with the children**: what it takes from one more child is what there is to read
off the content with the child, if the child does not come again where it may not. -/
theorem take_readOff {data : NodeData} (h : n.IsFirstIn data.heldOnce content) :
    (data.readOff content).take ⟨n, content.length⟩ = data.readOff (content ++ [.child n]) := by
  cases data with
  | compound d => exact congrArg NodeData.compound (d.take_readOff h)
  | sectionDef d => exact congrArg NodeData.sectionDef (d.take_readOff h)
  | memberRef d => exact congrArg NodeData.memberRef d.take_readOff
  | member d => exact congrArg NodeData.member (d.take_readOff h)
  | enumValue d => exact congrArg NodeData.enumValue (d.take_readOff h)
  | param d => exact congrArg NodeData.param (Param.take_readOff h)
  | tocSect name reference =>
    have h : n.IsFirstIn [.name, .reference] content := h
    simp (disch := decide) only [take, readOff, h.name_firstText?]
  | sect level id title | simpleSect kind title | description title =>
    have h : n.IsFirstIn [.title] content := h
    simp (disch := decide) only [take, readOff, h.slot_placeOf?]
  | table d =>
    have h : n.IsFirstIn [.caption] content := h
    simp (disch := decide) only [take, readOff, h.slot_placeOf?]
  | xrefSect id title => exact congrArg (NodeData.xrefSect id) Pushed.firstText_firstText?
  -- all other data takes nothing, and there is nothing to read
  | _ => rfl

/-- Character data leaves nothing else to read. -/
theorem readOff_append_text (data : NodeData) (content : List (Content Node)) (s : String) :
    data.readOff (content ++ [.text s]) = data.readOff content := by
  cases data <;> simp only [readOff, CompoundDef.readOff, SectionDef.readOff, MemberRef.readOff,
    MemberDef.readOff, EnumValue.readOff, Param.readOff, placeOf?_append_text,
    placesOf_append_text, firstText?, lastText?, dataOfKinds, lastData?, ofKind_append_text,
    children_append_text]

/-- **Places stay as they are** when character data joins the character data before it. -/
theorem readOff_appendText (data : NodeData) (content : List (Content Node)) (s : String) :
    data.readOff (Content.appendText s content) = data.readOff content := by
  rcases List.eq_nil_or_concat content with rfl | ⟨before, last, rfl⟩
  · exact data.readOff_append_text [] s
  · rw [List.concat_eq_append]
    cases last with
    | text t =>
      rw [Content.appendText_append_text, readOff_append_text, readOff_append_text]
    | child m =>
      have hsplit : before ++ [.child m, .text s] = (before ++ [.child m]) ++ [.text s] := by simp
      rw [Content.appendText_append_child, hsplit, readOff_append_text]

end NodeData

/-! ### Data by form -/

namespace Form

variable {f : Form} {e : Element} {content : List (Content Node)}

/-- The data of an element with this form, from its finished content. -/
def dataOf (f : Form) (e : Element) (content : List (Content Node)) : NodeData :=
  (f.start e).readOff content

/-- References to nested compounds say nothing of children, nor do those in text and literals. -/
theorem dataOf_innerRef (e : Element) (content : List (Content Node)) :
    innerRef.dataOf e content = innerRef.start e := by
  rw [dataOf, start]
  cases InnerKind.ofTag? e.name <;> rfl

theorem dataOf_ref (e : Element) (content : List (Content Node)) :
    ref.dataOf e content = ref.start e := by
  rw [dataOf, start]
  cases RefKind.ofName? (e.value "kindref") <;> rfl

theorem dataOf_htmlLiteral (e : Element) (content : List (Content Node)) :
    htmlLiteral.dataOf e content = htmlLiteral.start e := by
  rw [dataOf, start]
  cases e.flag? "block" <;> rfl

/-- Before there are any children, there is nothing to read. -/
theorem dataOf_nil (f : Form) (e : Element) : f.dataOf e [] = f.start e := by
  cases f with
  | innerRef => exact dataOf_innerRef e []
  | ref => exact dataOf_ref e []
  | htmlLiteral => exact dataOf_htmlLiteral e []
  | _ => rfl

end Form

end DocGraph
