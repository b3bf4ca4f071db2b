import DocGraph.Report.Level

namespace DocGraph

/-!
# Reports

What the user is told of a problem:

* `Remark`, `Report` — a message with a level, and the remarks below it;
* `Report.text` — the lines of a report, each closed by a line end;
* `Reportable` — the problems that can be reported.  A problem is a cause; its wording is given by
  the instance and nowhere else.
-/

/-- A line below the message of a report. -/
structure Remark where
  level : Level
  label : String
deriving DecidableEq, Repr

/-- Supplemental context. -/
def Remark.note (label : String) : Remark := ⟨.note, label⟩

/-- Advice. -/
def Remark.help (label : String) : Remark := ⟨.help, label⟩

/-- What the user is told of one problem. -/
structure Report where
  level : Level := default
  message : String
  remarks : List Remark
deriving DecidableEq, Repr

/-- The text of a report: the message, then the remarks indented by two. -/
def Report.text (r : Report) : String :=
  s!"{r.level.name}: {r.message}\n"
    ++ String.join (r.remarks.map fun m => s!"  {m.level.name}: {m.label}\n")

/-- Problems that can be reported. -/
class Reportable (α : Type) where
  /-- How grave the problem is as a whole. -/
  level : α → Level := fun _ => default
  /-- The primary message, without its level. -/
  message : α → String
  /-- The circumstances of the problem, in the order of the report. -/
  remarks : α → List Remark

/-- The report of a problem. -/
def Reportable.report {α : Type} [Reportable α] (a : α) : Report :=
  ⟨level a, message a, remarks a⟩

end DocGraph
