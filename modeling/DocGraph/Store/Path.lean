import DocGraph.Text.Cut

namespace DocGraph.FilePath

/-!
# Paths

A path is text with slashes between its components.  Empty components count for nothing, and neither
do single dots, save at the very beginning of a relative path.

* `Piece`, `pieces` — what stands between the slashes, and which of it counts;
* `components` — the components of a path.  Two paths with the same components are the same path;
* `stripLead?` — the rest of a path that begins with the components of another;
* `join` — a path as seen from a directory.
-/

/-- What stands between two slashes. -/
structure Piece where
  text : List Char
  /-- The component that it stands for, if it counts. -/
  component : Option (List Char)
deriving DecidableEq, Repr

/-- The component before the first slash of an absolute path. -/
def root : List Char := ['/']

/-- The first piece of a path; `alone` tells that there is no other. -/
def firstPiece (text : List Char) (alone : Bool) : Piece :=
  if text.isEmpty then ⟨text, if alone then none else some root⟩ else ⟨text, some text⟩

/-- Any other piece of a path. -/
def laterPiece (text : List Char) : Piece :=
  ⟨text, if text.isEmpty || text = ['.'] then none else some text⟩

/-- The pieces of a path. -/
def pieces (path : String) : List Piece :=
  match splitOn '/' path.toList with
  | [] => []
  | first :: others => firstPiece first others.isEmpty :: others.map laterPiece

/-- The components of a path. -/
def components (path : String) : List (List Char) := (pieces path).filterMap (·.component)

/-- Pieces less those at either end that do not count. -/
def trim (ps : List Piece) : List Piece :=
  ((ps.dropWhile (·.component.isNone)).reverse.dropWhile (·.component.isNone)).reverse

/-- The text of pieces.  The root alone is a slash, of which no piece has any text. -/
def textOf : List Piece → String
  | [⟨_, some component⟩] => String.ofList component
  | ps => "/".intercalate (ps.map fun p => String.ofList p.text)

/-- The pieces that follow the components `lead`, if the pieces begin with those. -/
def afterLead? : List (List Char) → List Piece → Option (List Piece)
  | [], ps => some ps
  | _ :: _, [] => none
  | c :: lead, p :: ps =>
    match p.component with
    | none => afterLead? (c :: lead) ps
    | some d => if c = d then afterLead? lead ps else none

/-- The rest of a path that begins with the components of `lead`, as it is written there. -/
def stripLead? (lead path : String) : Option String :=
  (afterLead? (components lead) (pieces path)).map (textOf ∘ trim)

/-- Whether a path does not depend on a directory. -/
def isAbsolute (path : String) : Bool := path.toList.head? = some '/'

/-- A path as seen from a directory. -/
def join (directory path : String) : String :=
  if isAbsolute path || directory.isEmpty then path
  else if directory.toList.getLast? = some '/' then directory ++ path
  else directory ++ "/" ++ path

end DocGraph.FilePath
