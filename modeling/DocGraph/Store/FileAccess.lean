namespace DocGraph

/-!
# Access to files

* `IoError` — why a file cannot be used: what kind of failure, and how the system words it;
* `FileBody` — what is found in a file that could be opened;
* `FileAccess` — how files are found and opened in some monad;
* `Workspace` — how they are written as well.
-/

/-- Kinds of failures. -/
inductive IoErrorKind where
  | notFound
  | permissionDenied
  | notADirectory
  | isADirectory
  | other
deriving DecidableEq, Repr

/-- Why a file cannot be used. -/
structure IoError where
  kind : IoErrorKind
  /-- The wording of the failure. -/
  text : String
deriving DecidableEq, Repr

/-- The bytes of an open file, or why they cannot be read. -/
abbrev FileBody := Except IoError (List UInt8)

/-- A way to find and open files. -/
structure FileAccess (m : Type → Type) where
  /-- The one path that stands for all paths of a file. -/
  canonical : String → m (Except IoError String)
  /-- Open a file by that path. -/
  openFile : String → m (Except IoError FileBody)

/-- Access to files that can also be written. -/
structure Workspace (m : Type → Type) extends FileAccess m where
  /-- Write a text to a file, in place of what it held. -/
  writeFile : String → String → m (Except IoError Unit)

end DocGraph
