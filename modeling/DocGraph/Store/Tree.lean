import DocGraph.Store.FileAccess
import DocGraph.Text.Cut
import DocGraph.Text.Utf8

namespace DocGraph

/-!
# A directory tree in memory

Directories with files, further directories and symbolic links, found as a POSIX system finds them:

* `Place`, `Entry`, `Tree` — the names from the root down, what stands there, and the whole tree;
* `Tree.walk` — the place to which the names of a path lead.  Links are followed
  wherever they stand;
* `Tree.canonical`, `Tree.openFile` — finding and opening files by path;
* `Tree.create` — the tree with a file written, whose directory has to exist;
* `Tree.workspace` — access to the files of a tree.
-/

/-- The names that lead from the root to a file or directory. -/
abbrev Place := List String

/-- What stands at a place. -/
inductive Entry where
  | file (bytes : List UInt8)
  | directory
  | link (target : String)
deriving DecidableEq, Repr

/-- A directory tree. -/
structure Tree where
  /-- Everything but the root; a later entry at the same place does not count. -/
  entries : List (Place × Entry) := []
  /-- The directory at which relative paths begin. -/
  start : Place := []
deriving DecidableEq, Repr

namespace Tree

/-! ### Failures -/

/-- Nothing stands there. -/
def noEntry : IoError := ⟨.notFound, "No such file or directory (os error 2)"⟩

/-- A path goes on beyond a file. -/
def notADirectory : IoError := ⟨.notADirectory, "Not a directory (os error 20)"⟩

/-- A directory stands where a file is needed. -/
def isADirectory : IoError := ⟨.isADirectory, "Is a directory (os error 21)"⟩

/-- Links lead to links without end. -/
def tooManyLinks : IoError := ⟨.other, "Too many levels of symbolic links (os error 40)"⟩

/-- How many links are followed. -/
def maxLinks : Nat := 40

/-! ### Finding -/

/-- What stands at a place. -/
def entry? (t : Tree) (p : Place) : Option Entry :=
  if p.isEmpty then some .directory else t.entries.lookup p

/-- The names of a path. -/
def names (path : String) : List String := (splitOn '/' path.toList).map String.ofList

/-- Where a path begins, as seen from a directory. -/
def origin (path : String) (directory : Place) : Place :=
  if path.toList.head? = some '/' then [] else directory

/-- The place to which names lead from a directory, when `links` more links may be followed. -/
def walk (t : Tree) (links : Nat) (directory : Place) (path : List String) :
    Except IoError Place :=
  match path with
  | [] => .ok directory
  | name :: rest =>
    if name = "" || name = "." then t.walk links directory rest
    else if name = ".." then t.walk links directory.dropLast rest
    else
      let place := directory ++ [name]
      match t.entry? place with
      | none => .error noEntry
      | some .directory => t.walk links place rest
      | some (.file _) => if rest.isEmpty then .ok place else .error notADirectory
      | some (.link target) =>
        match links with
        | 0 => .error tooManyLinks
        | links + 1 => t.walk links (origin target directory) (names target ++ rest)
termination_by (links, path.length)

/-- The place of a path. -/
def find (t : Tree) (path : String) : Except IoError Place :=
  if path.isEmpty then .error noEntry else t.walk maxLinks (origin path t.start) (names path)

/-- The one path that stands for all paths of a file. -/
def canonical (t : Tree) (path : String) : Except IoError String :=
  (t.find path).map fun place => "/" ++ "/".intercalate place

/-- Open a file.  A directory can be opened, but has no bytes. -/
def openFile (t : Tree) (path : String) : Except IoError FileBody := do
  match t.entry? (← t.find path) with
  | some (.file bytes) => return .ok bytes
  | some .directory => return .error isADirectory
  | _ => throw noEntry

/-! ### Writing -/

/-- The place where a file with a path is to be written.  Links are followed, whether or not
anything stands where they lead.  The empty name at the end of the way asks for a directory. -/
def destination (t : Tree) (links : Nat) (directory : Place) (path : String) :
    Except IoError Place :=
  let present := (names path).filter (! ·.isEmpty)
  match present.getLast? with
  | none => .error isADirectory
  | some last => do
    let above ← t.walk maxLinks (origin path directory) (present.dropLast ++ [""])
    if last = "." || last = ".." || path.toList.getLast? = some '/' then throw isADirectory
    let place := above ++ [last]
    match t.entry? place with
    | some .directory => throw isADirectory
    | some (.link target) =>
      match links with
      | 0 => throw tooManyLinks
      | links + 1 => t.destination links above target
    | some (.file _) | none => return place
termination_by links

/-- Write a file, in place of one that stands there. -/
def create (t : Tree) (path : String) (bytes : List UInt8) : Except IoError Tree := do
  if path.isEmpty then throw noEntry
  let place ← t.destination maxLinks t.start path
  return { t with entries := (place, .file bytes) :: t.entries }

/-- Access to the files of a tree. -/
def workspace : Workspace (StateM Tree) where
  canonical path := return (← get).canonical path
  openFile path := return (← get).openFile path
  writeFile path text := do
    match (← get).create path (Utf8.encode text) with
    | .error e => return .error e
    | .ok t => set t; return .ok ()

/-! ### Building -/

/-- The places above a place, the root excepted. -/
def ancestors (p : Place) : List Place :=
  (List.range p.length).filterMap fun n => if n = 0 then none else some (p.take n)

/-- Put something at a place, and directories above it where nothing stands. -/
def insert (t : Tree) (p : Place) (e : Entry) : Tree :=
  let missing := (ancestors p).filter fun q => (t.entry? q).isNone
  { t with entries := (p, e) :: (missing.map (·, Entry.directory)) ++ t.entries }

end Tree

end DocGraph
