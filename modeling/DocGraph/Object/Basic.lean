import DocGraph.Node.Data
import DocGraph.Object.Style
import DocGraph.Object.ScopeName
import DocGraph.Text.Blank
import DocGraph.Text.Hash32
import DocGraph.Text.Utf8

namespace DocGraph

/-!
# Objects

What documentation shows of a compound: where it belongs, what it is called, and to which other
compounds it is related.

* `Collection` — the groups of objects that share a directory and an index;
* `ObjectKind` — the kinds of objects, and `ObjectKind.ofCompound?` the kind for a compound;
* `Object`, `Object.ofCompound` — the object for a compound.  Related compounds are
  known by their ids;
* `Object.skeleton` — the permalink that an object has unless another object stands in the way.
-/

/-! ### Kinds -/

/-- Objects that share a directory and an index. -/
inductive Collection where
  | classes
  | namespaces
  /-- Files and folders. -/
  | files
  | groups
  | pages
deriving DecidableEq, Repr

namespace Collection

/-- Every collection, in order. -/
def all : List Collection := [.classes, .namespaces, .files, .groups, .pages]

/-- The name of a collection, with which the permalinks of its objects begin. -/
def name : Collection → String
  | .classes => "classes"
  | .namespaces => "namespaces"
  | .files => "files"
  | .groups => "groups"
  | .pages => "pages"

end Collection

/-- The kind of an object. -/
inductive ObjectKind where
  /-- A class, structure or union, as the keyword tells. -/
  | classLike (keyword : String)
  | namespaceLike (anonymous : Bool)
  | file
  | folder
  | group
  | page
deriving DecidableEq, Repr

namespace ObjectKind

/-- The kind of the object for a compound; compounds of other kinds are not shown. -/
def ofCompound? (d : CompoundDef) : Option ObjectKind :=
  match d.kind with
  | "class" | "struct" | "union" | "interface" | "protocol" => some (.classLike d.kind)
  | "namespace" => some (.namespaceLike (hasAnonymousEnd d.name))
  | "file" => some .file
  | "dir" => some .folder
  | "group" => some .group
  | "page" => some .page
  | _ => none

/-- The collection of objects of a kind. -/
def collection : ObjectKind → Collection
  | .classLike _ => .classes
  | .namespaceLike _ => .namespaces
  | .file | .folder => .files
  | .group => .groups
  | .page => .pages

/-- Whether the permalink of an object lies beneath that of its parent.  Others tell their ancestry
in their own names. -/
def nests : ObjectKind → Bool
  | .file | .group | .page => true
  | _ => false

/-- Whether objects of a kind are classes. -/
def isClass : ObjectKind → Bool
  | .classLike _ => true
  | _ => false

end ObjectKind

/-! ### Objects -/

/-- What documentation shows of a compound. -/
structure Object where
  /-- The id of the compound. -/
  id : String
  kind : ObjectKind
  /-- The place of the compound in the document. -/
  compound : Nat
  /-- The name in titles. -/
  name : String
  /-- The short name in lists. -/
  label : String
  /-- The part of the permalink that the object itself contributes. -/
  segment : String
  /-- The ids of the compounds listed as nested in this one. -/
  childIds : List String
  /-- The ids of the documented base classes. -/
  baseIds : List String
  /-- The ids of the documented derived classes. -/
  derivedIds : List String
deriving DecidableEq, Repr

namespace Object

/-- The collection of an object. -/
def collection (o : Object) : Collection := o.kind.collection

/-- The permalink of an object that lies beneath no other. -/
def skeleton (o : Object) : String := s!"{o.collection.name}/{o.segment}"

/-! ### Names -/

/-- The part of a path after its last slash. -/
def lastOfPath (path : List Char) : String := String.ofList (afterLast ['/'] path)

/-- A path less the slashes at its end. -/
def withoutSlashes (path : List Char) : List Char :=
  (path.reverse.dropWhile (· = '/')).reverse

/-- The title of a compound, or its name if it has none. -/
def titleOf (d : CompoundDef) : String := (d.title.filter (! isBlankText ·)).getD d.name

/-- The name of a compound in titles. -/
def nameOf (d : CompoundDef) : ObjectKind → String
  | .group | .page => titleOf d
  | _ => d.name

/-- The name of a compound in lists. -/
def labelOf (d : CompoundDef) : ObjectKind → String
  | .classLike _ | .namespaceLike _ =>
    let last := (scopesOf d.name).getLast?.getD d.name
    if isAnonymous last then "anonymous namespace" else last
  | .folder | .file => lastOfPath (withoutSlashes d.name.toList)
  | .group | .page => titleOf d

/-! ### Segments -/

/-- What tells an anonymous scope from others: the file where it stands, or else its ordinal. -/
def anonymousQualifier (d : CompoundDef) (ordinal : String) : String :=
  ((d.location.map fun l => lastOfPath l.file.toList).filter (! ·.isEmpty)).getD ordinal

/-- The path component for one scope of a name.  Specialisations differ in their template arguments
only, of which little would be left; a digest stands for them. -/
def scopeSegment (p : PermalinkStyle) (d : CompoundDef) (component : String) : String :=
  match component.toList with
  | '@' :: ordinal =>
    p.slug s!"{p.anonymousPrefix}-{anonymousQualifier d (String.ofList ordinal)}"
  | cs =>
    match cs.dropWhile (· ≠ '<') with
    | [] => p.slug component
    | arguments =>
      let name := String.ofList (cs.takeWhile (· ≠ '<'))
      let digest := Hash32.ofBytes (Utf8.encode (String.ofList arguments))
      s!"{p.slug name}-{Hash32.hex digest}"

/-- Path components joined, without those that are empty. -/
def joinSegments (segments : List String) : String :=
  "/".intercalate (segments.filter (! ·.isEmpty))

/-- The part of the permalink that a compound contributes. -/
def segmentOf (p : PermalinkStyle) (d : CompoundDef) : ObjectKind → String
  | .classLike _ | .namespaceLike _ =>
    joinSegments ((scopesOf d.name).map (scopeSegment p d))
  | .folder => joinSegments ((splitOn '/' d.name.toList).map (p.slug ∘ String.ofList))
  | _ => p.slug d.name

/-! ### Relations -/

/-- The kinds of nested compounds that become children of an object. -/
def childKinds : ObjectKind → List InnerKind
  | .namespaceLike _ => [.namespaces]
  | .folder => [.folders, .files]
  | .group => [.groups]
  | .page => [.pages]
  | .classLike _ | .file => []

/-- The object for a compound at a place of the document. -/
def ofCompound (p : PermalinkStyle) (d : CompoundDef) (kind : ObjectKind) (place : Nat) :
    Object where
  id := d.id
  kind
  compound := place
  name := nameOf d kind
  label := labelOf d kind
  segment := segmentOf p d kind
  childIds := (d.inner.filter fun r => (childKinds kind).contains r.kind).map (·.refid)
  baseIds := d.bases.filterMap (·.refid)
  derivedIds := d.derived.filterMap (·.refid)

end Object

end DocGraph
