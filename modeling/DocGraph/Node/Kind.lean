namespace DocGraph

/-!
# Kinds of nodes

The closed set of elements that a description of a compound is made of:

* `NodeKind` — one kind for each element tag of the schema.  Some tags serve two purposes (`title`,
  `member`); the node's data tells them apart.  Two kinds have no tag of their own: the pair of a
  term and its definition, and a character entity, of which there are many tags;
* `NodeKind.tag`, `NodeKind.ofTag?` — tags and back;
* `NodeKind.sect?`, `NodeKind.sectLevel?` — sections by level, from one to six.
-/

/-- The kind of a node. -/
inductive NodeKind where
  -- Documents and compounds
  | doxygen | compoundDef | compoundName | title | baseCompoundRef | derivedCompoundRef
  | includes | includedBy | incDepGraph | invIncDepGraph | inheritanceGraph | collaborationGraph
  | graphNode | label | link | childNode | edgeLabel | innerModule | innerDir | innerFile
  | innerClass | innerConcept | innerNamespace | innerPage | innerGroup | qualifier
  | templateParamList | sectionDef | header | description | member | tableOfContents | tocSect
  | name | reference | requiresClause | initializer | briefDescription | detailedDescription
  | inbodyDescription | exportList | exportItem | location | listOfAllMembers | scope
  -- Members
  | memberDef | type | definition | argsString | qualifiedName | read | write | bitfield
  | reimplements | reimplementedBy | param | attributes | declName | defName | array | defVal
  | typeConstraint | enumValue | exceptions | references | referencedBy
  -- Program listings
  | programListing | codeLine | highlight | sp
  -- Descriptions
  | para | internal | sect1 | sect2 | sect3 | sect4 | sect5 | sect6 | ulink | bold | s | strike
  | underline | emphasis | computerOutput | subscript | superscript | center | small | cite | del
  | ins | summary | preformatted | htmlOnly | manOnly | xmlOnly | rtfOnly | latexOnly
  | docbookOnly | verbatim | javadocLiteral | javadocCode | image | dot | msc | plantuml
  | dotFile | mscFile | diaFile | plantumlFile | anchor | formula | ref | emoji | lineBreak
  | hruler | itemizedList | orderedList | listItem | simpleSect | variableList | varListEntry
  | term | table | caption | row | entry | heading | tocList | tocItem | language | parameterList
  | parameterItem | parameterNameList | parameterType | parameterName | parameterDescription
  | xrefSect | xrefTitle | xrefDescription | copyDoc | blockquote | parblock | details
  | indexEntry | primaryIndex | secondaryIndex
  -- Kinds without a tag of their own
  | varListPair | entity
deriving DecidableEq, Repr

namespace NodeKind

/-- Every kind with a tag, in the order of the schema. -/
def tagged : List NodeKind :=
  [.doxygen, .compoundDef, .compoundName, .title, .baseCompoundRef, .derivedCompoundRef,
   .includes, .includedBy, .incDepGraph, .invIncDepGraph, .inheritanceGraph, .collaborationGraph,
   .graphNode, .label, .link, .childNode, .edgeLabel, .innerModule, .innerDir, .innerFile,
   .innerClass, .innerConcept, .innerNamespace, .innerPage, .innerGroup, .qualifier,
   .templateParamList, .sectionDef, .header, .description, .member, .tableOfContents, .tocSect,
   .name, .reference, .requiresClause, .initializer, .briefDescription, .detailedDescription,
   .inbodyDescription, .exportList, .exportItem, .location, .listOfAllMembers, .scope, .memberDef,
   .type, .definition, .argsString, .qualifiedName, .read, .write, .bitfield, .reimplements,
   .reimplementedBy, .param, .attributes, .declName, .defName, .array, .defVal, .typeConstraint,
   .enumValue, .exceptions, .references, .referencedBy, .programListing, .codeLine, .highlight,
   .sp, .para, .internal, .sect1, .sect2, .sect3, .sect4, .sect5, .sect6, .ulink, .bold, .s,
   .strike, .underline, .emphasis, .computerOutput, .subscript, .superscript, .center, .small,
   .cite, .del, .ins, .summary, .preformatted, .htmlOnly, .manOnly, .xmlOnly, .rtfOnly,
   .latexOnly, .docbookOnly, .verbatim, .javadocLiteral, .javadocCode, .image, .dot, .msc,
   .plantuml, .dotFile, .mscFile, .diaFile, .plantumlFile, .anchor, .formula, .ref, .emoji,
   .lineBreak, .hruler, .itemizedList, .orderedList, .listItem, .simpleSect, .variableList,
   .varListEntry, .term, .table, .caption, .row, .entry, .heading, .tocList, .tocItem, .language,
   .parameterList, .parameterItem, .parameterNameList, .parameterType, .parameterName,
   .parameterDescription, .xrefSect, .xrefTitle, .xrefDescription, .copyDoc, .blockquote,
   .parblock, .details, .indexEntry, .primaryIndex, .secondaryIndex]

/-- Every kind, in order. -/
def all : List NodeKind := tagged ++ [.varListPair, .entity]

/-- The tag of a kind, or a name that no element has. -/
def tag : NodeKind → String
  | .doxygen => "doxygen"
  | .compoundDef => "compounddef"
  | .compoundName => "compoundname"
  | .title => "title"
  | .baseCompoundRef => "basecompoundref"
  | .derivedCompoundRef => "derivedcompoundref"
  | .includes => "includes"
  | .includedBy => "includedby"
  | .incDepGraph => "incdepgraph"
  | .invIncDepGraph => "invincdepgraph"
  | .inheritanceGraph => "inheritancegraph"
  | .collaborationGraph => "collaborationgraph"
  | .graphNode => "node"
  | .label => "label"
  | .link => "link"
  | .childNode => "childnode"
  | .edgeLabel => "edgelabel"
  | .innerModule => "innermodule"
  | .innerDir => "innerdir"
  | .innerFile => "innerfile"
  | .innerClass => "innerclass"
  | .innerConcept => "innerconcept"
  | .innerNamespace => "innernamespace"
  | .innerPage => "innerpage"
  | .innerGroup => "innergroup"
  | .qualifier => "qualifier"
  | .templateParamList => "templateparamlist"
  | .sectionDef => "sectiondef"
  | .header => "header"
  | .description => "description"
  | .member => "member"
  | .tableOfContents => "tableofcontents"
  | .tocSect => "tocsect"
  | .name => "name"
  | .reference => "reference"
  | .requiresClause => "requiresclause"
  | .initializer => "initializer"
  | .briefDescription => "briefdescription"
  | .detailedDescription => "detaileddescription"
  | .inbodyDescription => "inbodydescription"
  | .exportList => "exports"
  | .exportItem => "export"
  | .location => "location"
  | .listOfAllMembers => "listofallmembers"
  | .scope => "scope"
  | .memberDef => "memberdef"
  | .type => "type"
  | .definition => "definition"
  | .argsString => "argsstring"
  | .qualifiedName => "qualifiedname"
  | .read => "read"
  | .write => "write"
  | .bitfield => "bitfield"
  | .reimplements => "reimplements"
  | .reimplementedBy => "reimplementedby"
  | .param => "param"
  | .attributes => "attributes"
  | .declName => "declname"
  | .defName => "defname"
  | .array => "array"
  | .defVal => "defval"
  | .typeConstraint => "typeconstraint"
  | .enumValue => "enumvalue"
  | .exceptions => "exceptions"
  | .references => "references"
  | .referencedBy => "referencedby"
  | .programListing => "programlisting"
  | .codeLine => "codeline"
  | .highlight => "highlight"
  | .sp => "sp"
  | .para => "para"
  | .internal => "internal"
  | .sect1 => "sect1"
  | .sect2 => "sect2"
  | .sect3 => "sect3"
  | .sect4 => "sect4"
  | .sect5 => "sect5"
  | .sect6 => "sect6"
  | .ulink => "ulink"
  | .bold => "bold"
  | .s => "s"
  | .strike => "strike"
  | .underline => "underline"
  | .emphasis => "emphasis"
  | .computerOutput => "computeroutput"
  | .subscript => "subscript"
  | .superscript => "superscript"
  | .center => "center"
  | .small => "small"
  | .cite => "cite"
  | .del => "del"
  | .ins => "ins"
  | .summary => "summary"
  | .preformatted => "preformatted"
  | .htmlOnly => "htmlonly"
  | .manOnly => "manonly"
  | .xmlOnly => "xmlonly"
  | .rtfOnly => "rtfonly"
  | .latexOnly => "latexonly"
  | .docbookOnly => "docbookonly"
  | .verbatim => "verbatim"
  | .javadocLiteral => "javadocliteral"
  | .javadocCode => "javadoccode"
  | .image => "image"
  | .dot => "dot"
  | .msc => "msc"
  | .plantuml => "plantuml"
  | .dotFile => "dotfile"
  | .mscFile => "mscfile"
  | .diaFile => "diafile"
  | .plantumlFile => "plantumlfile"
  | .anchor => "anchor"
  | .formula => "formula"
  | .ref => "ref"
  | .emoji => "emoji"
  | .lineBreak => "linebreak"
  | .hruler => "hruler"
  | .itemizedList => "itemizedlist"
  | .orderedList => "orderedlist"
  | .listItem => "listitem"
  | .simpleSect => "simplesect"
  | .variableList => "variablelist"
  | .varListEntry => "varlistentry"
  | .term => "term"
  | .table => "table"
  | .caption => "caption"
  | .row => "row"
  | .entry => "entry"
  | .heading => "heading"
  | .tocList => "toclist"
  | .tocItem => "tocitem"
  | .language => "language"
  | .parameterList => "parameterlist"
  | .parameterItem => "parameteritem"
  | .parameterNameList => "parameternamelist"
  | .parameterType => "parametertype"
  | .parameterName => "parametername"
  | .parameterDescription => "parameterdescription"
  | .xrefSect => "xrefsect"
  | .xrefTitle => "xreftitle"
  | .xrefDescription => "xrefdescription"
  | .copyDoc => "copydoc"
  | .blockquote => "blockquote"
  | .parblock => "parblock"
  | .details => "details"
  | .indexEntry => "indexentry"
  | .primaryIndex => "primaryie"
  | .secondaryIndex => "secondaryie"
  | .varListPair => "varlistpair"
  | .entity => "entity"

/-- The kind of the elements with a tag, if the schema has them. -/
def ofTag? (tag : String) : Option NodeKind := tagged.find? (·.tag == tag)

/-- The kind with a name, which need not be the tag of any element. -/
def named? (name : String) : Option NodeKind := all.find? (·.tag == name)

/-- The place of a kind in the order of all kinds. -/
def rank (k : NodeKind) : Nat := all.idxOf k

/-- The name of a kind in listings of kinds: its tag with a capital, where the tag is no name of
its own. -/
def listed : NodeKind → String
  | .graphNode => "GraphNode"
  | .varListPair => "VarListPair"
  | k =>
    match k.tag.toList with
    | [] => ""
    | c :: rest => String.ofList (c.toUpper :: rest)

/-- The wording of a kind in messages. -/
def shown (k : NodeKind) : String := s!"`{k.tag}`"

/-- The sections of a level. -/
def sect? : Nat → Option NodeKind
  | 1 => some .sect1
  | 2 => some .sect2
  | 3 => some .sect3
  | 4 => some .sect4
  | 5 => some .sect5
  | 6 => some .sect6
  | _ => none

/-- The level of a kind of section. -/
def sectLevel? : NodeKind → Option Nat
  | .sect1 => some 1
  | .sect2 => some 2
  | .sect3 => some 3
  | .sect4 => some 4
  | .sect5 => some 5
  | .sect6 => some 6
  | _ => none

/-- Whether nodes of a kind hold a description. -/
def isDescription : NodeKind → Bool
  | .briefDescription | .detailedDescription | .inbodyDescription | .description
  | .parameterDescription | .xrefDescription => true
  | _ => false

end NodeKind

end DocGraph
