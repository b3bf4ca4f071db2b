namespace DocGraph

/-!
# Data of nodes

The typed values of an element's attributes, and of those children to which the schema gives a
meaning of their own:

* one structure for each element with several values, named for what it describes;
* `NodeData` — the data of a node, by the kind of values that its element has.

A field of type `Option Nat` or `List Nat` that stands for children holds their places in the
content of the node.  What is taken from children is empty until there are any.  Enumerated
attributes are kept as text, since the sets of their values grow; `RefKind` is the exception, as no
reference can be resolved without it.
-/

/-- The root of a compound file. -/
structure DocumentMeta where
  /-- The version of the program that wrote the file. -/
  version : String
  language : Option String
deriving DecidableEq, Repr, Inhabited

/-- A reference to a base or derived class, which need not be documented itself. -/
structure CompoundRef where
  refid : Option String
  protection : String
  virtuality : String
  name : String
deriving DecidableEq, Repr

/-- An included or including file. -/
structure IncludeRef where
  refid : Option String
  /-- Whether the file was named in quotes. -/
  isLocal : Bool
  name : String
deriving DecidableEq, Repr

/-- What is nested within a compound. -/
inductive InnerKind where
  | modules | folders | files | classes | concepts | namespaces | pages | groups
deriving DecidableEq, Repr

/-- The kind of nested compounds that a tag refers to. -/
def InnerKind.ofTag? : String → Option InnerKind
  | "innermodule" => some .modules
  | "innerdir" => some .folders
  | "innerfile" => some .files
  | "innerclass" => some .classes
  | "innerconcept" => some .concepts
  | "innernamespace" => some .namespaces
  | "innerpage" => some .pages
  | "innergroup" => some .groups
  | _ => none

/-- A reference to a nested compound. -/
structure InnerRef where
  kind : InnerKind
  refid : String
  protection : Option String
  isInline : Bool
  name : String
deriving DecidableEq, Repr

/-- Where something stands in the documented sources. -/
structure Location where
  file : String
  line : Option Nat := none
  column : Option Nat := none
  declFile : Option String := none
  declLine : Option Nat := none
  declColumn : Option Nat := none
  bodyFile : Option String := none
  bodyStart : Option Int := none
  /-- Minus one where it is unknown. -/
  bodyEnd : Option Int := none
deriving DecidableEq, Repr, Inhabited

/-- A unit of documentation: a class, namespace, file, folder, group, page and so on. -/
structure CompoundDef where
  id : String
  /-- The kind as written, such as `class` or `dir`. -/
  kind : String
  language : Option String := none
  protection : Option String := none
  isFinal : Bool := false
  isInline : Bool := false
  isSealed : Bool := false
  isAbstract : Bool := false
  /-- The qualified name, the path of a file, or the label of a page. -/
  name : String := ""
  title : Option String := none
  bases : List CompoundRef := []
  derived : List CompoundRef := []
  inner : List InnerRef := []
  brief : Option Nat := none
  detailed : Option Nat := none
  templateParams : Option Nat := none
  sections : List Nat := []
  contents : Option Nat := none
  listing : Option Nat := none
  location : Option Location := none
deriving DecidableEq, Repr, Inhabited

/-- The nested compounds of one kind, in order. -/
def CompoundDef.innerOf (d : CompoundDef) (kind : InnerKind) : List InnerRef :=
  d.inner.filter (·.kind = kind)

/-- A group of members. -/
structure SectionDef where
  kind : String
  header : Option String := none
  description : Option Nat := none
  members : List Nat := []
deriving DecidableEq, Repr

/-- A member listed outside its definition. -/
structure MemberRef where
  refid : String
  kind : Option String := none
  protection : Option String := none
  virtuality : Option String := none
  ambiguityScope : Option String := none
  scope : Option String := none
  name : String := ""
deriving DecidableEq, Repr

/-- The id and the text of a plain reference. -/
structure RefTarget where
  refid : String
  name : String
deriving DecidableEq, Repr

/-- A documented symbol. -/
structure MemberDef where
  id : String
  kind : String
  protection : String
  isStatic : Bool
  isConst : Bool
  isInline : Bool
  isExplicit : Bool
  isConstexpr : Bool
  isFinal : Bool
  virtuality : Option String
  refQualifier : Option String
  isStrong : Option Bool
  /-- Qualifiers of a few languages, as written and in order. -/
  otherAttributes : List (String × String)
  name : String := ""
  qualifiedName : Option String := none
  definition : Option String := none
  argsString : Option String := none
  bitfield : Option String := none
  read : Option String := none
  write : Option String := none
  type : Option Nat := none
  templateParams : Option Nat := none
  initializer : Option Nat := none
  exceptions : Option Nat := none
  params : List Nat := []
  enumValues : List Nat := []
  brief : Option Nat := none
  detailed : Option Nat := none
  inbody : Option Nat := none
  reimplements : List RefTarget := []
  reimplementedBy : List RefTarget := []
  location : Option Location := none
deriving DecidableEq, Repr

/-- A value of an enumeration. -/
structure EnumValue where
  id : String
  protection : String
  name : String := ""
  initializer : Option Nat := none
  brief : Option Nat := none
  detailed : Option Nat := none
deriving DecidableEq, Repr

/-- A parameter of a function or a template. -/
structure Param where
  attributes : Option String := none
  declName : Option String := none
  defName : Option String := none
  array : Option String := none
  type : Option Nat := none
  defVal : Option Nat := none
  typeConstraint : Option Nat := none
  brief : Option Nat := none
deriving DecidableEq, Repr

/-- A use of one member in another. -/
structure MemberUse where
  refid : String
  compoundRef : Option String
  startLine : Option Nat
  endLine : Option Nat
  name : String
deriving DecidableEq, Repr

/-- What a reference refers to. -/
inductive RefKind where
  | compound | member | xrefSect
deriving DecidableEq, Repr

namespace RefKind

/-- The spelling of a kind of reference. -/
def name : RefKind → String
  | .compound => "compound"
  | .member => "member"
  | .xrefSect => "xrefsect"

/-- The kind of reference that a text spells. -/
def ofName? : String → Option RefKind
  | "compound" => some .compound
  | "member" => some .member
  | "xrefsect" => some .xrefSect
  | _ => none

end RefKind

/-- A reference from text. -/
structure Ref where
  refid : String
  kind : RefKind
  external : Option String
  tooltip : Option String
deriving DecidableEq, Repr

/-- An image. -/
structure Image where
  /-- The output format that the image is meant for. -/
  format : Option String
  name : Option String
  width : Option String
  height : Option String
  alt : Option String
  isInline : Bool
  caption : Option String
deriving DecidableEq, Repr

/-- A diagram, drawn from its text or from a file. -/
structure Diagram where
  name : Option String
  width : Option String
  height : Option String
  caption : Option String
  engine : Option String
deriving DecidableEq, Repr

/-- A table. -/
structure Table where
  rows : Nat
  columns : Nat
  width : Option String
  caption : Option Nat := none
deriving DecidableEq, Repr

/-- A cell of a table. -/
structure TableEntry where
  isHead : Bool
  colspan : Option Nat
  rowspan : Option Nat
  align : Option String
  valign : Option String
  width : Option String
  cssClass : Option String
deriving DecidableEq, Repr

/-- A line of a program listing. -/
structure CodeLine where
  number : Option Nat
  refid : Option String
  refkind : Option String
  isExternal : Bool
deriving DecidableEq, Repr

/-- The data of a node. -/
inductive NodeData where
  /-- No values at all. -/
  | bare
  | document (data : DocumentMeta)
  | compound (data : CompoundDef)
  | compoundRef (data : CompoundRef)
  | includeRef (data : IncludeRef)
  | inner (data : InnerRef)
  | graphNode (id : String)
  | graphLink (refid : String) (external : Option String)
  | childNode (refid relation : String)
  | sectionDef (data : SectionDef)
  | memberRef (data : MemberRef)
  | member (data : MemberDef)
  | enumValue (data : EnumValue)
  | param (data : Param)
  | reimplement (data : RefTarget)
  | memberUse (data : MemberUse)
  | location (data : Location)
  | tocSect (name reference : String)
  | exportItem (refid : Option String)
  | ref (data : Ref)
  | sect (level : Nat) (id : Option String) (title : Option Nat)
  | anchor (id : String)
  | formula (id : String)
  | ulink (url : String)
  | image (data : Image)
  | diagram (data : Diagram)
  | emoji (name unicode : String)
  | rawBlock (block : Bool)
  | list (style : Option String) (start : Option Nat)
  | listItem (override : Option String) (value : Option Nat)
  | simpleSect (kind : String) (title : Option Nat)
  | table (data : Table)
  | entry (data : TableEntry)
  | caption (id : Option String)
  | heading (level : Nat)
  | tocItem (id : String)
  | language (langid : String)
  | parameterList (kind : String)
  | parameterName (direction : Option String)
  | xrefSect (id : String) (title : Option String)
  | copyDoc (link : String)
  | description (title : Option Nat)
  | listing (filename : Option String)
  | codeLine (data : CodeLine)
  | highlight (cssClass : String)
  | sp (count : Nat)
  /-- A character entity, by its tag and the text that it stands for. -/
  | entity (name text : String)
deriving DecidableEq, Repr

end DocGraph
