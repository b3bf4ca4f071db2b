import DocGraph.Node.Entity
import DocGraph.Node.Kind
import DocGraph.Schema.AttributeRule

namespace DocGraph

/-!
# The schema

What elements may be, as data.  The form of an element follows from where it stands: its parent's
form gives the form of a child by its tag.

* `Form` — the forms of elements.  Sections, and internal parts that hold sections, have a level;
* `Form.builder` — the name under which a form refuses elements;
* `Form.attributes` — its attributes, in the order in which they are checked;
* `ContentModel`, `Form.model` — what becomes of character data;
* `Slot`, `Form.slots`, `Form.slot?` — its child elements, and which of them may occur once.  Within
  running text any markup may stand (`Form.ofMarkup`);
* `Closing`, `Form.closings` — what has to hold once the children are known;
* `Form.refuses?`, `Form.refuser?` — elements that are refused for their names, and by whom.
-/

/-- The forms of elements. -/
inductive Form where
  -- Compounds
  | compound | words | compoundRef | includeRef | innerRef
  | graph | graphNode | graphLink | childNode
  | contents | tocSect | exportList | exportItem | memberList | listedMember
  -- Members
  | sectionDef | sectionMember | member | linkedText | templateParams | param | enumValue
  | reimplementation | memberUse | location
  -- Program listings
  | listing | codeLine | highlight | space
  -- Descriptions
  | description | sect (level : Nat) | internal (level : Nat) | title | para
  | markup | literal | htmlLiteral | ulink | ref | anchor | formula | image
  | drawnDiagram | fileDiagram | emoji | mark
  | itemizedList | orderedList | listItem | simpleSect | variableList | variableEntry | term
  | heading | tocList | tocItem | language
  | parameterList | parameterItem | parameterNames | parameterType | parameterName
  | xrefSect | copyDoc | paraContainer | details | indexEntry
  | table | caption | row | entry
  -- Elements that the schema knows, or knows elsewhere
  | entity | misplaced
deriving DecidableEq, Repr

namespace Form

/-- The name under which a form refuses elements. -/
def builder : Form → String
  | .compound => "compound builder"
  | .words => "text element builder"
  | .compoundRef => "compound reference builder"
  | .includeRef => "include builder"
  | .innerRef => "inner compound builder"
  | .graph => "graph builder"
  | .graphNode => "graph node builder"
  | .graphLink => "graph link builder"
  | .childNode => "child node builder"
  | .contents => "table of contents builder"
  | .tocSect => "toc section builder"
  | .exportList => "exports builder"
  | .exportItem => "export builder"
  | .memberList => "member list builder"
  | .listedMember => "member listing builder"
  | .sectionDef => "section builder"
  | .sectionMember => "section member builder"
  | .member => "member builder"
  | .linkedText => "linked text builder"
  | .templateParams => "template parameter list builder"
  | .param => "parameter builder"
  | .enumValue => "enum value builder"
  | .reimplementation => "reimplementation builder"
  | .memberUse => "member reference builder"
  | .location => "location builder"
  | .listing => "program listing builder"
  | .codeLine => "code line builder"
  | .highlight => "highlight builder"
  | .space => "space builder"
  | .description => "description builder"
  | .sect _ => "section builder"
  | .internal _ => "internal builder"
  | .title => "title builder"
  | .para => "paragraph builder"
  | .markup => "markup builder"
  | .literal => "verbatim builder"
  | .htmlLiteral => "verbatim builder"
  | .ulink => "ulink builder"
  | .ref => "reference builder"
  | .anchor => "anchor builder"
  | .formula => "formula builder"
  | .image => "image builder"
  | .drawnDiagram => "diagram builder"
  | .fileDiagram => "diagram builder"
  | .emoji => "emoji builder"
  | .mark => "empty element builder"
  | .itemizedList => "list builder"
  | .orderedList => "list builder"
  | .listItem => "list item builder"
  | .simpleSect => "simple section builder"
  | .variableList => "variable list builder"
  | .variableEntry => "variable list entry builder"
  | .term => "term builder"
  | .heading => "heading builder"
  | .tocList => "toc list builder"
  | .tocItem => "toc item builder"
  | .language => "language builder"
  | .parameterList => "parameter list builder"
  | .parameterItem => "parameter item builder"
  | .parameterNames => "parameter name list builder"
  | .parameterType => "parameter type builder"
  | .parameterName => "parameter name builder"
  | .xrefSect => "xrefsect builder"
  | .copyDoc => "copydoc builder"
  | .paraContainer => "paragraph container builder"
  | .details => "details builder"
  | .indexEntry => "index entry builder"
  | .table => "table builder"
  | .caption => "table caption builder"
  | .row => "table row builder"
  | .entry => "table entry builder"
  | .entity => "entity builder"
  | .misplaced => "description content builder"

/-! ### Attributes -/

/-- Qualifiers of members that only a few languages have; their values are kept as written. -/
def memberQualifiers : List String :=
  ["extern", "volatile", "mutable", "noexcept", "noexceptexpression", "nodiscard", "consteval",
   "constinit", "readable", "writable", "initonly", "settable", "privatesettable",
   "protectedsettable", "gettable", "privategettable", "protectedgettable", "sealed", "new", "add",
   "remove", "raise", "optional", "required", "accessor", "attribute", "property", "readonly",
   "bound", "removable", "constrained", "transient", "maybevoid", "maybedefault",
   "maybeambiguous"]

/-- An attribute that may be absent and may be anything. -/
def optional (name : String) : AttributeRule := ⟨name, .any⟩

/-- An attribute that has to be present and not empty. -/
def filled (name : String) : AttributeRule := ⟨name, .filled⟩

/-- An attribute that, if present, denotes a truth value. -/
def flag (name : String) : AttributeRule := ⟨name, .flag⟩

/-- An attribute that, if present, denotes a number of 32 bits without sign. -/
def natural (name : String) : AttributeRule := ⟨name, .number (.unsigned 32) false⟩

/-- An attribute that, if present, denotes a number of 32 bits with a sign. -/
def integer (name : String) : AttributeRule := ⟨name, .number (.signed 32) false⟩

/-- The attributes of a form, in the order in which they are checked. -/
def attributes : Form → List AttributeRule
  | .compound =>
    [filled "id", filled "kind", optional "language", optional "prot", flag "final",
     flag "inline", flag "sealed", flag "abstract"]
  | .compoundRef => [optional "refid", filled "prot", filled "virt"]
  | .includeRef => [optional "refid", flag "local"]
  | .innerRef => [filled "refid", optional "prot", flag "inline"]
  | .graphNode => [filled "id"]
  | .graphLink => [filled "refid", optional "external"]
  | .childNode => [filled "refid", filled "relation"]
  | .exportItem => [optional "refid"]
  | .listedMember =>
    [filled "refid", optional "prot", optional "virt", optional "ambiguityscope"]
  | .sectionDef => [filled "kind"]
  | .sectionMember => [filled "refid", filled "kind"]
  | .member =>
    [filled "id", filled "kind", filled "prot", flag "static", flag "const", flag "inline",
     flag "explicit", flag "constexpr", flag "final", optional "virt", optional "refqual",
     flag "strong"] ++ memberQualifiers.map optional
  | .enumValue => [filled "id", filled "prot"]
  | .reimplementation => [filled "refid"]
  | .memberUse =>
    [filled "refid", optional "compoundref", natural "startline", natural "endline"]
  | .location =>
    [filled "file", natural "line", natural "column", optional "declfile", natural "declline",
     natural "declcolumn", optional "bodyfile", integer "bodystart", integer "bodyend"]
  | .listing => [optional "filename"]
  | .codeLine => [natural "lineno", optional "refid", optional "refkind", flag "external"]
  | .highlight => [filled "class"]
  | .space => [natural "value"]
  | .sect _ => [optional "id"]
  | .htmlLiteral => [optional "block"]
  | .ulink => [filled "url"]
  | .ref => [filled "refid", ⟨"kindref", .refKind⟩, optional "external", optional "tooltip"]
  | .anchor => [filled "id"]
  | .formula => [filled "id"]
  | .image =>
    [optional "type", optional "name", optional "width", optional "height", optional "alt",
     flag "inline", optional "caption"]
  | .drawnDiagram | .fileDiagram =>
    [optional "name", optional "width", optional "height", optional "caption",
     optional "engine"]
  | .emoji => [filled "name", filled "unicode"]
  | .orderedList => [optional "type", natural "start"]
  | .listItem => [optional "override", natural "value"]
  | .simpleSect => [filled "kind"]
  | .heading => [⟨"level", .number (.unsigned 8) true⟩]
  | .tocItem => [filled "id"]
  | .language => [filled "langid"]
  | .parameterList => [filled "kind"]
  | .parameterName => [optional "direction"]
  | .xrefSect => [filled "id"]
  | .copyDoc => [filled "link"]
  | .table =>
    [⟨"rows", .number (.unsigned 32) true⟩, ⟨"cols", .number (.unsigned 32) true⟩,
     optional "width"]
  | .caption => [optional "id"]
  | .entry =>
    [flag "thead", natural "colspan", natural "rowspan", optional "align", optional "valign",
     optional "width", optional "class"]
  | _ => []

/-! ### Character data -/

/-- What becomes of the character data of an element. -/
inductive ContentModel where
  /-- All of it is kept, as in running text. -/
  | mixed
  /-- It is the whole content; no text at all is no content. -/
  | verbatim
  /-- All but indentation is kept. -/
  | indented
  /-- Only indentation may stand, and none is kept. -/
  | elements
deriving DecidableEq, Repr

/-- Whether a piece of character data is kept, or how it violates the schema. -/
def ContentModel.keeps (m : ContentModel) (s : String) : Except Defect Bool :=
  match m with
  | .mixed => .ok true
  | .verbatim => .ok (! s.isEmpty)
  | .indented => .ok (! isBlankText s)
  | .elements => if isBlankText s then .ok false else .error (.unexpectedText (trimmed s))

/-- The content model of a form. -/
def model : Form → ContentModel
  | .words | .compoundRef | .includeRef | .innerRef | .exportItem | .reimplementation
  | .memberUse | .literal | .htmlLiteral | .formula | .drawnDiagram => .verbatim
  | .linkedText | .highlight | .title | .para | .markup | .ulink | .ref | .image
  | .fileDiagram | .term | .heading | .tocItem | .parameterType | .parameterName
  | .caption => .mixed
  | .description | .sect _ | .internal _ | .listItem | .simpleSect | .language | .copyDoc
  | .paraContainer | .details | .entry => .indented
  | _ => .elements

/-! ### Child elements -/

/-- A place for child elements with a tag. -/
structure Slot where
  tag : String
  form : Form
  /-- Whether the tag may occur only once. -/
  once : Bool := false
deriving DecidableEq, Repr

/-- A place for child elements with a tag. -/
def many (tag : String) (form : Form) : Slot := ⟨tag, form, false⟩

/-- A place for one child element with a tag. -/
def once (tag : String) (form : Form) : Slot := ⟨tag, form, true⟩

/-- The place for sections of a level, if there is such a level. -/
def sections (level : Nat) : List Slot :=
  (NodeKind.sect? level).toList.map fun kind => many kind.tag (.sect level)

/-- The child elements that a form names. -/
def slots : Form → List Slot
  | .compound =>
    [once "compoundname" .words, once "title" .words,
     many "basecompoundref" .compoundRef, many "derivedcompoundref" .compoundRef,
     many "includes" .includeRef, many "includedby" .includeRef,
     many "incdepgraph" .graph, many "invincdepgraph" .graph,
     many "inheritancegraph" .graph, many "collaborationgraph" .graph,
     many "innermodule" .innerRef, many "innerdir" .innerRef, many "innerfile" .innerRef,
     many "innerclass" .innerRef, many "innerconcept" .innerRef,
     many "innernamespace" .innerRef, many "innerpage" .innerRef, many "innergroup" .innerRef,
     many "qualifier" .words, once "templateparamlist" .templateParams,
     many "sectiondef" .sectionDef, once "tableofcontents" .contents,
     many "requiresclause" .linkedText, many "initializer" .linkedText,
     once "briefdescription" .description, once "detaileddescription" .description,
     many "exports" .exportList, once "programlisting" .listing,
     many "location" .location, many "listofallmembers" .memberList]
  | .graph => [many "node" .graphNode]
  | .graphNode => [once "label" .words, once "link" .graphLink, many "childnode" .childNode]
  | .childNode => [many "edgelabel" .words]
  | .contents => [many "tocsect" .tocSect, many "tableofcontents" .contents]
  | .tocSect =>
    [once "name" .words, once "reference" .words, many "tableofcontents" .contents]
  | .exportList => [many "export" .exportItem]
  | .memberList => [many "member" .listedMember]
  | .listedMember => [many "scope" .words, many "name" .words]
  | .sectionDef =>
    [once "header" .words, once "description" .description, many "memberdef" .member,
     many "member" .sectionMember]
  | .sectionMember => [many "name" .words]
  | .member =>
    [many "name" .words, many "qualifiedname" .words, many "definition" .words,
     many "argsstring" .words, many "bitfield" .words, many "read" .words, many "write" .words,
     once "type" .linkedText, once "initializer" .linkedText, once "exceptions" .linkedText,
     many "requiresclause" .linkedText, many "qualifier" .linkedText,
     once "templateparamlist" .templateParams, many "param" .param,
     many "enumvalue" .enumValue, many "reimplements" .reimplementation,
     many "reimplementedby" .reimplementation, many "references" .memberUse,
     many "referencedby" .memberUse, once "briefdescription" .description,
     once "detaileddescription" .description, once "inbodydescription" .description,
     many "location" .location]
  | .linkedText => [many "ref" .ref]
  | .templateParams => [many "param" .param]
  | .param =>
    [many "attributes" .words, many "declname" .words, many "defname" .words,
     many "array" .words, once "type" .linkedText, once "defval" .linkedText,
     once "typeconstraint" .linkedText, once "briefdescription" .description]
  | .enumValue =>
    [many "name" .words, once "initializer" .linkedText,
     once "briefdescription" .description, once "detaileddescription" .description]
  | .listing => [many "codeline" .codeLine]
  | .codeLine => [many "highlight" .highlight]
  | .highlight => [many "sp" .space, many "ref" .ref]
  | .description =>
    [once "title" .title, many "para" .para, many "internal" (.internal 1)] ++ sections 1
  | .sect level =>
    [once "title" .title, many "para" .para, many "internal" (.internal (level + 1))]
      ++ sections (level + 1)
  | .internal level => many "para" .para :: sections level
  | .itemizedList | .orderedList => [many "listitem" .listItem]
  | .listItem | .language | .paraContainer | .entry => [many "para" .para]
  | .simpleSect => [once "title" .title, many "para" .para]
  | .variableList => [many "varlistentry" .variableEntry, many "listitem" .listItem]
  | .variableEntry => [many "term" .term]
  | .tocList => [many "tocitem" .tocItem]
  | .parameterList => [many "parameteritem" .parameterItem]
  | .parameterItem =>
    [many "parameternamelist" .parameterNames, once "parameterdescription" .description]
  | .parameterNames =>
    [many "parametertype" .parameterType, many "parametername" .parameterName]
  | .xrefSect => [many "xreftitle" .words, once "xrefdescription" .description]
  | .copyDoc => [many "para" .para, many "internal" (.internal 1)] ++ sections 1
  | .details => [once "summary" .markup, many "para" .para]
  | .indexEntry => [many "primaryie" .words, many "secondaryie" .words]
  | .table => [once "caption" .caption, many "row" .row]
  | .row => [many "entry" .entry]
  | _ => []

/-- Whether the child elements of a form are any that may stand in running text. -/
def takesMarkup : Form → Bool
  | .title | .para | .markup | .ulink | .ref | .image | .fileDiagram | .term | .heading
  | .tocItem | .parameterType | .parameterName | .caption => true
  | _ => false

/-- The form of an element in running text, by its kind. -/
def ofMarkupKind : NodeKind → Form
  | .bold | .s | .strike | .underline | .emphasis | .computerOutput | .subscript | .superscript
  | .center | .small | .cite | .del | .ins | .summary | .preformatted => .markup
  | .htmlOnly => .htmlLiteral
  | .manOnly | .xmlOnly | .rtfOnly | .latexOnly | .docbookOnly | .verbatim | .javadocLiteral
  | .javadocCode => .literal
  | .ulink => .ulink
  | .ref => .ref
  | .anchor => .anchor
  | .formula => .formula
  | .image => .image
  | .dot | .msc | .plantuml => .drawnDiagram
  | .dotFile | .mscFile | .diaFile | .plantumlFile => .fileDiagram
  | .emoji => .emoji
  | .lineBreak | .hruler => .mark
  | .itemizedList => .itemizedList
  | .orderedList => .orderedList
  | .simpleSect => .simpleSect
  | .variableList => .variableList
  | .table => .table
  | .heading => .heading
  | .tocList => .tocList
  | .language => .language
  | .parameterList => .parameterList
  | .xrefSect => .xrefSect
  | .copyDoc => .copyDoc
  | .blockquote | .parblock => .paraContainer
  | .details => .details
  | .indexEntry => .indexEntry
  | .programListing => .listing
  | .para => .para
  | _ => .misplaced

/-- The form of an element in running text, by its tag.  What the schema does not know at all can
only be a character entity. -/
def ofMarkup (tag : String) : Form :=
  match NodeKind.ofTag? tag with
  | some kind => ofMarkupKind kind
  | none => .entity

/-- The place of a child element with a tag. -/
def slot? (f : Form) (tag : String) : Option Slot :=
  if f.takesMarkup then some (many tag (ofMarkup tag)) else f.slots.find? (·.tag == tag)

/-! ### Closing conditions -/

/-- What has to hold of an element once its children are known. -/
inductive Closing where
  /-- There is a child with the tag. -/
  | present (tag : String)
  /-- There is a child with the tag, and its text is not blank. -/
  | told (tag : String)
  /-- The last name given is not blank. -/
  | named
  /-- The element's own text is not blank. -/
  | worded
  /-- The last term has a definition. -/
  | paired
  /-- The attribute, if present, denotes a truth value. -/
  | flagged (name : String)
deriving DecidableEq, Repr

/-- The closing conditions of a form. -/
def closings : Form → List Closing
  | .compound => [.told "compoundname"]
  | .graphNode => [.present "label"]
  | .tocSect => [.told "reference"]
  | .exportItem => [.worded]
  | .listedMember | .sectionMember | .member | .enumValue => [.named]
  | .htmlLiteral => [.flagged "block"]
  | .variableList => [.paired]
  | .parameterItem => [.present "parameterdescription"]
  | .xrefSect => [.present "xrefdescription"]
  | _ => []

/-! ### Names -/

/-- The kind of node that an element becomes: only characters have tags that the schema does not
list. -/
def kindOf (tag : String) : NodeKind := (NodeKind.ofTag? tag).getD .entity

/-- How the name of an element alone violates its form.  Where the node has its kind from the tag or
from a level, there has to be such a kind. -/
def refuses? : Form → String → Option Defect
  | .compound, tag =>
    if tag = NodeKind.compoundDef.tag then none
    else some (.unexpectedRoot NodeKind.compoundDef.tag)
  | .entity, tag =>
    if (characterEntity? tag).isSome then none else some (.unexpectedElement tag)
  | .misplaced, tag => some (.unexpectedElement tag)
  | .innerRef, tag =>
    if (NodeKind.ofTag? tag).isSome && (InnerKind.ofTag? tag).isSome then none
    else some (.unexpectedElement tag)
  | .description, tag =>
    if (NodeKind.ofTag? tag).any (·.isDescription) then none else some (.unexpectedElement tag)
  | .sect level, tag =>
    if (NodeKind.sect? level).isSome then none else some (.unexpectedElement tag)
  | .reimplementation, tag | .memberUse, tag =>
    if (NodeKind.ofTag? tag).isSome then none else some (.unexpectedElement tag)
  | _, _ => none

/-- The name under which a form refuses an element for its name.  Two forms give none. -/
def refuser? : Form → Option String
  | .reimplementation | .memberUse => none
  | f => some f.builder

end Form
end DocGraph
