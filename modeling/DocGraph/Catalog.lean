import DocGraph.Document

namespace DocGraph

/-!
# The index of a project

The index lists the compounds of a project and their members, and so tells which files to read.

* `Catalog`, `CatalogEntry` — the compounds listed, in order;
* `CatalogEntry.fileName` — the file of a compound;
* `Catalog.ofRoot` — the index that a root stands for, or the first violation.
-/

/-- A member listed in the index. -/
structure CatalogMember where
  refid : String
  kind : String
  name : String
deriving DecidableEq, Repr

/-- A compound listed in the index. -/
structure CatalogEntry where
  /-- The id of the compound. -/
  refid : String
  kind : String
  name : String
  members : List CatalogMember
deriving DecidableEq, Repr

/-- The name of the file that holds a compound. -/
def CatalogEntry.fileName (c : CatalogEntry) : String := c.refid ++ ".xml"

/-- The index of a project. -/
structure Catalog where
  version : String := ""
  entries : List CatalogEntry := []
deriving DecidableEq, Repr

namespace Catalog

/-- The tag of the root of an index. -/
def rootTag : String := "doxygenindex"

/-- The attributes of whatever the index lists. -/
def listedAttributes : List AttributeRule := [⟨"refid", .filled⟩, ⟨"kind", .filled⟩]

/-- The name under which listed members are refused. -/
def memberBuilder : String := "index member builder"

/-- The member that an element lists. -/
def memberOf (e : Element) : Except Violation CatalogMember :=
  Violation.blame memberBuilder do
    AttributeRule.checkAll listedAttributes e
    let name ← e.childText "name"
    return ⟨e.value "refid", e.value "kind", name⟩

/-- The name under which listed compounds are refused. -/
def entryBuilder : String := "index compound builder"

/-- A compound with one more of its child elements read: the last name given counts. -/
def addChild (e : Element) (entry : CatalogEntry) (child : Element) :
    Except Violation CatalogEntry :=
  match child.name with
  | "name" => .ok { entry with name := child.text }
  | "member" => do
    let m ← memberOf child
    return { entry with members := entry.members ++ [m] }
  | other => .error ((e.violation (.unexpectedElement other)).rejectedBy entryBuilder)

/-- The compound that an element lists. -/
def entryOf (e : Element) : Except Violation CatalogEntry := do
  Violation.blame entryBuilder (AttributeRule.checkAll listedAttributes e)
  let entry ← e.children.foldlM (addChild e) ⟨e.value "refid", e.value "kind", "", []⟩
  if entry.name.isEmpty then
    throw ((e.violation (.missingElement "name")).rejectedBy entryBuilder)
  return entry

/-- The name under which the index is refused. -/
def builder : String := "index builder"

/-- The compound that a child element of the root lists. -/
def listed (root child : Element) : Except Violation CatalogEntry :=
  if child.name = "compound" then entryOf child
  else .error ((root.violation (.unexpectedElement child.name)).rejectedBy builder)

/-- The index that a root stands for; its character data does not matter. -/
def ofRoot (root : Element) : Except Violation Catalog := do
  if root.name ≠ rootTag then
    throw ((root.violation (.unexpectedRoot rootTag)).rejectedBy builder)
  Violation.blame builder (AttributeRule.checkAll Document.rootAttributes root)
  let entries ← root.children.mapM (listed root)
  return ⟨root.value "version", entries⟩

end Catalog

end DocGraph
