import DocGraph.Node.Basic
import DocGraph.Schema.Form

namespace DocGraph

/-!
# From children to data

What the data of a node says of its children is taken from each of them as it is pushed:

* `Pushed` — a child at the place where it is pushed, and the ways in which a value is taken from
  it.  A place is held (`Pushed.slot`), or added to those before (`Pushed.places`); a text replaces
  the one before (`Pushed.text`, `Pushed.name`), or gives way to it (`Pushed.firstText`); data is
  added (`Pushed.gather`), or replaces the data before (`Pushed.last`);
* `NodeData.take` — what data takes from a child, by the sort of data;
* `NodeData.requiredText` — the text that some data has to take before it is complete;
* `Form.start` — the data of an element before any child, from its attributes and its own text.
-/

/-! ### Ways of taking a value -/

/-- A child that comes to stand at a place of the content. -/
structure Pushed where
  node : Node
  place : Nat

namespace Pushed

variable {α : Type}

/-- The place of a child of this kind, which may not come again. -/
def slot (c : Pushed) (kind : NodeKind) (place : Option Nat) : Option Nat :=
  if c.node.kind = kind then some c.place else place

/-- The places of all children of these kinds. -/
def places (c : Pushed) (kinds : List NodeKind) (before : List Nat) : List Nat :=
  if c.node.kind ∈ kinds then before ++ [c.place] else before

/-- The text of the last child of this kind. -/
def text (c : Pushed) (kind : NodeKind) (before : Option String) : Option String :=
  if c.node.kind = kind then some c.node.text else before

/-- The text of the last child of this kind, where no text is the same as an empty one. -/
def name (c : Pushed) (kind : NodeKind) (before : String) : String :=
  if c.node.kind = kind then c.node.text else before

/-- The text of the first child of this kind. -/
def firstText (c : Pushed) (kind : NodeKind) (before : Option String) : Option String :=
  if c.node.kind = kind then some (before.getD c.node.text) else before

/-- Data of all children of these kinds. -/
def gather (c : Pushed) (kinds : List NodeKind) (get : NodeData → Option α) (before : List α) :
    List α :=
  if c.node.kind ∈ kinds then before ++ (get c.node.data).toList else before

/-- Data of the last child of this kind. -/
def last (c : Pushed) (kind : NodeKind) (get : NodeData → Option α) (before : Option α) :
    Option α :=
  if c.node.kind = kind then (get c.node.data).or before else before

end Pushed

/-! ### Data of children -/

namespace NodeData

/-- The data of a reference to a class. -/
def compoundRef? : NodeData → Option CompoundRef
  | .compoundRef d => some d
  | _ => none

/-- The data of a reference to a nested compound. -/
def inner? : NodeData → Option InnerRef
  | .inner d => some d
  | _ => none

/-- The data of a reference to a reimplemented or reimplementing member. -/
def reimplement? : NodeData → Option RefTarget
  | .reimplement d => some d
  | _ => none

/-- The data of a location. -/
def location? : NodeData → Option Location
  | .location d => some d
  | _ => none

end NodeData

/-- Kinds of references to nested compounds. -/
def NodeKind.inner : List NodeKind :=
  [.innerModule, .innerDir, .innerFile, .innerClass, .innerConcept, .innerNamespace, .innerPage,
   .innerGroup]

/-! ### What data takes from a child -/

/-- What the data of a compound takes from a child. -/
def CompoundDef.take (d : CompoundDef) (c : Pushed) : CompoundDef :=
  { d with
    name := c.name .compoundName d.name
    title := c.text .title d.title
    bases := c.gather [.baseCompoundRef] (·.compoundRef?) d.bases
    derived := c.gather [.derivedCompoundRef] (·.compoundRef?) d.derived
    inner := c.gather NodeKind.inner (·.inner?) d.inner
    brief := c.slot .briefDescription d.brief
    detailed := c.slot .detailedDescription d.detailed
    templateParams := c.slot .templateParamList d.templateParams
    sections := c.places [.sectionDef] d.sections
    contents := c.slot .tableOfContents d.contents
    listing := c.slot .programListing d.listing
    location := c.last .location (·.location?) d.location }

/-- What the data of a group of members takes from a child. -/
def SectionDef.take (d : SectionDef) (c : Pushed) : SectionDef :=
  { d with
    header := c.firstText .header d.header
    description := c.slot .description d.description
    members := c.places [.memberDef, .member] d.members }

/-- What the data of a member listed outside its definition takes from a child. -/
def MemberRef.take (d : MemberRef) (c : Pushed) : MemberRef :=
  { d with
    scope := c.text .scope d.scope
    name := c.name .name d.name }

/-- What the data of a member takes from a child. -/
def MemberDef.take (d : MemberDef) (c : Pushed) : MemberDef :=
  { d with
    name := c.name .name d.name
    qualifiedName := c.text .qualifiedName d.qualifiedName
    definition := c.text .definition d.definition
    argsString := c.text .argsString d.argsString
    bitfield := c.text .bitfield d.bitfield
    read := c.text .read d.read
    write := c.text .write d.write
    type := c.slot .type d.type
    templateParams := c.slot .templateParamList d.templateParams
    initializer := c.slot .initializer d.initializer
    exceptions := c.slot .exceptions d.exceptions
    params := c.places [.param] d.params
    enumValues := c.places [.enumValue] d.enumValues
    brief := c.slot .briefDescription d.brief
    detailed := c.slot .detailedDescription d.detailed
    inbody := c.slot .inbodyDescription d.inbody
    reimplements := c.gather [.reimplements] (·.reimplement?) d.reimplements
    reimplementedBy := c.gather [.reimplementedBy] (·.reimplement?) d.reimplementedBy
    location := c.last .location (·.location?) d.location }

/-- What the data of a value of an enumeration takes from a child. -/
def EnumValue.take (d : EnumValue) (c : Pushed) : EnumValue :=
  { d with
    name := c.name .name d.name
    initializer := c.slot .initializer d.initializer
    brief := c.slot .briefDescription d.brief
    detailed := c.slot .detailedDescription d.detailed }

/-- What the data of a parameter takes from a child. -/
def Param.take (d : Param) (c : Pushed) : Param where
  attributes := c.text .attributes d.attributes
  declName := c.text .declName d.declName
  defName := c.text .defName d.defName
  array := c.text .array d.array
  type := c.slot .type d.type
  defVal := c.slot .defVal d.defVal
  typeConstraint := c.slot .typeConstraint d.typeConstraint
  brief := c.slot .briefDescription d.brief

namespace NodeData

/-- What data takes from a child.  Most sorts of data take nothing. -/
def take (data : NodeData) (c : Pushed) : NodeData :=
  match data with
  | .compound d => .compound (d.take c)
  | .sectionDef d => .sectionDef (d.take c)
  | .memberRef d => .memberRef (d.take c)
  | .member d => .member (d.take c)
  | .enumValue d => .enumValue (d.take c)
  | .param d => .param (d.take c)
  | .tocSect name reference => .tocSect (c.name .name name) (c.name .reference reference)
  | .sect level id title => .sect level id (c.slot .title title)
  | .simpleSect kind title => .simpleSect kind (c.slot .title title)
  | .table d => .table { d with caption := c.slot .caption d.caption }
  | .xrefSect id title => .xrefSect id (c.firstText .xrefTitle title)
  | .description title => .description (c.slot .title title)
  | _ => data

/-- The text that has to be taken from a child: the name of a compound or member, and what an entry
of a table of contents refers to. -/
def requiredText : NodeData → String
  | .compound d => d.name
  | .memberRef d => d.name
  | .member d => d.name
  | .enumValue d => d.name
  | .tocSect _ reference => reference
  | _ => ""

end NodeData

/-! ### Data by form -/

namespace Form

/-- The data of a compound before any child. -/
def compoundData (e : Element) : CompoundDef where
  id := e.value "id"
  kind := e.value "kind"
  language := e.filled? "language"
  protection := e.filled? "prot"
  isFinal := e.flag "final"
  isInline := e.flag "inline"
  isSealed := e.flag "sealed"
  isAbstract := e.flag "abstract"

/-- The data of a member before any child. -/
def memberData (e : Element) : MemberDef where
  id := e.value "id"
  kind := e.value "kind"
  protection := e.value "prot"
  isStatic := e.flag "static"
  isConst := e.flag "const"
  isInline := e.flag "inline"
  isExplicit := e.flag "explicit"
  isConstexpr := e.flag "constexpr"
  isFinal := e.flag "final"
  virtuality := e.attribute? "virt"
  refQualifier := e.attribute? "refqual"
  isStrong := e.flag? "strong"
  otherAttributes :=
    (e.attributes.filter (memberQualifiers.contains ·.name)).map fun a => (a.name, a.value)

/-- The data of a location. -/
def locationData (e : Element) : Location where
  file := e.value "file"
  line := e.natural? "line"
  column := e.natural? "column"
  declFile := e.filled? "declfile"
  declLine := e.natural? "declline"
  declColumn := e.natural? "declcolumn"
  bodyFile := e.filled? "bodyfile"
  bodyStart := e.integer? "bodystart"
  bodyEnd := e.integer? "bodyend"

/-- The data of an element with this form before any child. -/
def start (f : Form) (e : Element) : NodeData :=
  match f with
  | .compound => .compound (compoundData e)
  | .compoundRef =>
    .compoundRef ⟨e.filled? "refid", e.value "prot", e.value "virt", e.text⟩
  | .includeRef => .includeRef ⟨e.filled? "refid", e.flag "local", e.text⟩
  | .innerRef =>
    match InnerKind.ofTag? e.name with
    | some kind => .inner ⟨kind, e.value "refid", e.filled? "prot", e.flag "inline", e.text⟩
    | none => .bare
  | .graphNode => .graphNode (e.value "id")
  | .graphLink => .graphLink (e.value "refid") (e.filled? "external")
  | .childNode => .childNode (e.value "refid") (e.value "relation")
  | .tocSect => .tocSect "" ""
  | .exportItem => .exportItem (e.filled? "refid")
  | .listedMember =>
    .memberRef
      { refid := e.value "refid", protection := e.attribute? "prot",
        virtuality := e.attribute? "virt", ambiguityScope := e.filled? "ambiguityscope" }
  | .sectionDef => .sectionDef { kind := e.value "kind" }
  | .sectionMember => .memberRef { refid := e.value "refid", kind := some (e.value "kind") }
  | .member => .member (memberData e)
  | .param => .param {}
  | .enumValue => .enumValue { id := e.value "id", protection := e.value "prot" }
  | .reimplementation => .reimplement ⟨e.value "refid", e.text⟩
  | .memberUse =>
    .memberUse ⟨e.value "refid", e.filled? "compoundref", e.natural? "startline",
      e.natural? "endline", e.text⟩
  | .location => .location (locationData e)
  | .listing => .listing (e.filled? "filename")
  | .codeLine =>
    .codeLine ⟨e.natural? "lineno", e.filled? "refid", e.filled? "refkind", e.flag "external"⟩
  | .highlight => .highlight (e.value "class")
  | .space => .sp ((e.natural? "value").getD 1)
  | .description => .description none
  | .sect level => .sect level (e.filled? "id") none
  | .htmlLiteral => ((e.flag? "block").map .rawBlock).getD .bare
  | .ulink => .ulink (e.value "url")
  | .ref =>
    match RefKind.ofName? (e.value "kindref") with
    | some kind => .ref ⟨e.value "refid", kind, e.filled? "external", e.attribute? "tooltip"⟩
    | none => .bare
  | .anchor => .anchor (e.value "id")
  | .formula => .formula (e.value "id")
  | .image =>
    .image ⟨e.attribute? "type", e.attribute? "name", e.attribute? "width",
      e.attribute? "height", e.attribute? "alt", e.flag "inline", e.attribute? "caption"⟩
  | .drawnDiagram | .fileDiagram =>
    .diagram ⟨e.attribute? "name", e.attribute? "width", e.attribute? "height",
      e.attribute? "caption", e.attribute? "engine"⟩
  | .emoji => .emoji (e.value "name") (e.value "unicode")
  | .itemizedList | .orderedList => .list (e.attribute? "type") (e.natural? "start")
  | .listItem => .listItem (e.attribute? "override") (e.natural? "value")
  | .simpleSect => .simpleSect (e.value "kind") none
  | .heading => .heading ((e.natural? "level" 8).getD 0)
  | .tocItem => .tocItem (e.value "id")
  | .language => .language (e.value "langid")
  | .parameterList => .parameterList (e.value "kind")
  | .parameterName => .parameterName (e.attribute? "direction")
  | .xrefSect => .xrefSect (e.value "id") none
  | .copyDoc => .copyDoc (e.value "link")
  | .table =>
    .table
      { rows := (e.natural? "rows").getD 0, columns := (e.natural? "cols").getD 0,
        width := e.attribute? "width" }
  | .caption => .caption (e.filled? "id")
  | .entry =>
    .entry ⟨e.flag "thead", e.natural? "colspan", e.natural? "rowspan", e.attribute? "align",
      e.attribute? "valign", e.attribute? "width", e.attribute? "class"⟩
  | .entity => .entity e.name ((characterEntity? e.name).getD "")
  | _ => .bare

end Form

end DocGraph
