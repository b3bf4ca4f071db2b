import DocGraph.Object.Style

namespace DocGraph

/-!
# Settings of a run
-/

/-- The choices that a user has about a run. -/
structure Settings where
  permalink : PermalinkStyle := {}
  /-- The name of the index within the directory of a project. -/
  indexFile : String := "index.xml"
  /-- Whether a run fails if there were warnings.  Output is produced all the same. -/
  denyWarnings : Bool := false
deriving DecidableEq, Repr

end DocGraph
