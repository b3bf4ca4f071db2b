import DocGraph.Report.Recipient
import DocGraph.Graph.Basic
import DocGraph.Project.Settings
import DocGraph.Project.Failure

namespace DocGraph.Project

/-!
# Linking a project

* `Linking`, `linking` — the linked graph of some roots, and all warnings, in order;
* `link` — the same, with the warnings handed to a recipient;
* `verdict` — fails if there were warnings that the settings deny.  The verdict is made when all
  output is available.
-/

/-- What linking yields. -/
structure Linking where
  graph : Graph
  /-- The reports to make, in order. -/
  reports : List Report
  /-- How many references lead somewhere. -/
  resolved : Nat

/-- The linked graph of some roots. -/
def linking (settings : Settings) (roots : List Element) : Except Violation Linking := do
  let document ← Document.ofRoots roots
  let (arena, omitted) := Arena.ofDocument settings.permalink document
  let (graph, refused) := arena.toGraph
  let (resolved, unresolved) := graph.tryReferences
  let reports := omitted.map Reportable.report ++ refused.map Reportable.report
    ++ unresolved.map Reportable.report
  return ⟨graph, reports, resolved⟩

/-- The linked graph of some roots, and the recipient after all warnings. -/
def link {ρ : Type} [Recipient ρ] (settings : Settings) (roots : List Element) (recipient : ρ) :
    Except Failure (Graph × ρ) := do
  let linked ← (linking settings roots).mapError Failure.invalid
  return (linked.graph, Recipient.recordAll linked.reports recipient)

/-- Fail if there were warnings and the settings deny them. -/
def verdict {ρ : Type} [Recipient ρ] (settings : Settings) (recipient : ρ) :
    Except Failure Unit :=
  let count := (Recipient.tally recipient).count .warning
  if 0 < count && settings.denyWarnings then .error (.warningsDenied count) else .ok ()

end DocGraph.Project
