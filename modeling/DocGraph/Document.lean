import DocGraph.Schema.Build

namespace DocGraph

/-!
# Documents

Each compound file has a root that holds compounds; a document holds those of all files, in order.

* `Document` — the compounds, and what is known of the program that wrote them;
* `Document.ofRoots` — the document of some roots, or the first violation.
-/

/-- The compounds of a project. -/
structure Document where
  /-- Of the first file; empty if there is none. -/
  origin : DocumentMeta := ⟨"", none⟩
  compounds : List Node := []

namespace Document

/-- The node above all compounds. -/
def root (d : Document) : Node where
  kind := .doxygen
  data := .document d.origin
  content := d.compounds.map .child

/-- The compound at a place in the document. -/
def compound? (d : Document) (place : Nat) : Option Node := d.compounds[place]?

/-- The name under which roots are refused. -/
def assembler : String := "document assembler"

/-- The attributes of roots.  Those that name the schema are accepted and of no use. -/
def rootAttributes : List AttributeRule :=
  [⟨"version", .filled⟩, ⟨"xml:lang", .any⟩, ⟨"xmlns:xsi", .any⟩,
   ⟨"xsi:noNamespaceSchemaLocation", .any⟩]

/-- A violation found in a root. -/
def violation (root : Element) (defect : Defect) : Violation :=
  (root.violation defect).rejectedBy assembler

/-- The compound that a piece of a root's content is. -/
def compoundOf (root : Element) : Content Element → Except Violation Node
  | .text s => .error (violation root (.unexpectedText (trimmed s)))
  | .child e =>
    if e.name = NodeKind.compoundDef.tag then buildCompound e
    else .error (violation root (.unexpectedElement e.name))

/-- The document of a single root. -/
def ofRoot (root : Element) : Except Violation Document := do
  if root.name ≠ NodeKind.doxygen.tag then
    throw (violation root (.unexpectedRoot NodeKind.doxygen.tag))
  Violation.blame assembler (AttributeRule.checkAll rootAttributes root)
  let compounds ← root.inner.mapM (compoundOf root)
  return ⟨⟨root.value "version", root.filled? "xml:lang"⟩, compounds⟩

/-- The document of some roots, in order. -/
def ofRoots (roots : List Element) : Except Violation Document := do
  match ← roots.mapM ofRoot with
  | [] => return {}
  | first :: others => return ⟨first.origin, first.compounds ++ others.flatMap (·.compounds)⟩

end Document

end DocGraph
