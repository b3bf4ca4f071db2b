import DocGraph.Store.FileAccess
import DocGraph.Store.Path

namespace DocGraph

/-!
# Files in memory

* `Shelf` — files by the text of their paths, and aliases for directories;
* `Shelf.put`, `Shelf.erase` — the shelf with a file added or taken away;
* `Shelf.canonical`, `Shelf.openFile`, `Shelf.access` — finding and opening files.
-/

/-- Files in memory. -/
structure Shelf where
  files : List (String × List UInt8) := []
  /-- Paths that stand for others; the first that applies counts.  An alias of nothing is closed to
  everyone. -/
  aliases : List (String × String) := []
deriving DecidableEq, Repr

namespace Shelf

/-- Put a file on the shelf, in place of one with the same path. -/
def put (s : Shelf) (path : String) (bytes : List UInt8) : Shelf :=
  { s with files := (path, bytes) :: s.files.filter (·.1 ≠ path) }

/-- Take a file off the shelf. -/
def erase (s : Shelf) (path : String) : Shelf :=
  { s with files := s.files.filter (·.1 ≠ path) }

/-- Whether there is a file with this path. -/
def contains (s : Shelf) (path : String) : Bool := (s.files.lookup path).isSome

/-- A path with the alias `name` replaced by what it stands for, if the path begins with it. -/
def expand? (path : String) : String × String → Option (Except IoError String)
  | (name, target) =>
    (FilePath.stripLead? name path).map fun rest =>
      if target.isEmpty then .error ⟨.permissionDenied, "permission denied"⟩
      else if rest.isEmpty then .ok target
      else .ok (FilePath.join target rest)

/-- The path that stands for all paths of a file.  One alias is replaced, once. -/
def canonical (s : Shelf) (path : String) : Except IoError String :=
  (s.aliases.findSome? (expand? path)).getD (.ok path)

/-- Open the file with exactly this path. -/
def openFile (s : Shelf) (path : String) : Except IoError FileBody :=
  match s.files.lookup path with
  | some bytes => .ok (.ok bytes)
  | none => .error ⟨.notFound, "entity not found"⟩

/-- Access to the files on a shelf, which stays as it is. -/
def access (s : Shelf) : FileAccess Id where
  canonical := s.canonical
  openFile := s.openFile

end Shelf

end DocGraph
