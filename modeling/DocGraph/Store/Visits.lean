import DocGraph.Store.FileAccess
import DocGraph.Store.Path

namespace DocGraph

/-!
# Files that are opened once

Many paths may lead to the same file, and reading it twice would make its content appear twice:

* `Visits` — the files opened so far;
* `Opened` — what opening a file once yields;
* `FileAccess.openOnce` — opens a file unless it has been opened.  Failures are not recorded, so a
  file that cannot be opened now may be opened later.
-/

/-- The canonical paths of the files opened so far, as components. -/
structure Visits where
  paths : List (List (List Char)) := []
deriving DecidableEq, Repr

namespace Visits

/-- Whether a file has been opened. -/
def contains (v : Visits) (path : String) : Bool := v.paths.contains (FilePath.components path)

/-- Record that a file has been opened. -/
def insert (v : Visits) (path : String) : Visits := ⟨FilePath.components path :: v.paths⟩

end Visits

/-- What opening a file once yields. -/
inductive Opened where
  /-- The file had not been opened. -/
  | first (body : FileBody)
  /-- The file has been opened before. -/
  | visited

/-- Open a file unless it has been opened. -/
def FileAccess.openOnce {m : Type → Type} [Monad m] (files : FileAccess m) (path : String)
    (v : Visits) : m (Except IoError Opened × Visits) := do
  match ← files.canonical path with
  | .error e => return (.error e, v)
  | .ok canonical =>
    if v.contains canonical then return (.ok .visited, v)
    else match ← files.openFile canonical with
      | .error e => return (.error e, v)
      | .ok body => return (.ok (.first body), v.insert canonical)

end DocGraph
