import DocGraph.Catalog
import DocGraph.Markup.Parse
import DocGraph.Project.Settings
import DocGraph.Project.Failure
import DocGraph.Store.Visits

namespace DocGraph.Project

/-!
# Loading a project

The directory of a project holds an index and a file for each compound that the index lists.

* `Loading` — computations that open files, may fail, and know what has been opened;
* `loadFile` — the root of a file, or nothing if it has been opened before;
* `Files`, `load` — the index and the roots of the files that it lists, in its order.
-/

/-- Computations that open files.  What has been opened is known even after a failure. -/
abbrev Loading (m : Type → Type) := ExceptT Failure (StateT Visits m)

variable {m : Type → Type} [Monad m]

/-- Open a file once. -/
def openFile (files : FileAccess m) (path : String) : Loading m Opened :=
  fun v => do
    let (result, v) ← files.openOnce path v
    return (result.mapError (.inaccessible path), v)

/-- The root of a file that has just been opened. -/
def rootOf? (path : String) : Opened → Except Failure (Option Element)
  | .visited => .ok none
  | .first (.error cause) => .error (.unreadable path cause)
  | .first (.ok bytes) => (Markup.parse bytes).map some |>.mapError (.malformed path)

/-- The root of a file, or nothing if the file has been opened before. -/
def loadFile (files : FileAccess m) (path : String) : Loading m (Option Element) := do
  let opened ← openFile files path
  liftM (rootOf? path opened)

/-- The content of the directory of a project. -/
structure Files where
  catalog : Catalog
  /-- The roots of the files of compounds, in the order of the catalog. -/
  roots : List Element

/-- The index that a root stands for; an index opened before lists nothing. -/
def catalogOf : Option Element → Except Failure Catalog
  | none => .ok {}
  | some root => (Catalog.ofRoot root).mapError .invalid

/-- Load the index of a directory and every file that it lists.  A file is loaded once, however
often and under whatever path it is listed. -/
def load (files : FileAccess m) (settings : Settings) (directory : String) : Loading m Files := do
  let index ← loadFile files (FilePath.join directory settings.indexFile)
  let catalog ← liftM (catalogOf index)
  let roots ← catalog.entries.mapM fun entry =>
    loadFile files (FilePath.join directory entry.fileName)
  return ⟨catalog, roots.filterMap id⟩

end DocGraph.Project
