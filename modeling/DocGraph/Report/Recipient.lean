import DocGraph.Report.Basic

namespace DocGraph

/-!
# Recipients of reports

A run hands every report to a recipient, which counts it and shows or keeps it.  Reporting never
fails, and no decision of a run depends on what a recipient did with a report:

* `Tally` — how many reports there were of each level;
* `Recipient` — a recipient, by how it records a report and the tally it keeps;
* `Buffer` — keeps the reports;
* `Writer`, `Display` — writes the text of each report as soon as it arrives.  A report that cannot
  be written is counted all the same, and counted as dropped.
-/

/-- How many reports there were of each level. -/
structure Tally where
  internalError : Nat := 0
  error : Nat := 0
  warning : Nat := 0
  note : Nat := 0
  help : Nat := 0
deriving DecidableEq, Repr, Inhabited

namespace Tally

/-- The number of reports of a level. -/
def count (t : Tally) : Level → Nat
  | .internalError => t.internalError
  | .error => t.error
  | .warning => t.warning
  | .note => t.note
  | .help => t.help

/-- One more report of a level. -/
def add (t : Tally) : Level → Tally
  | .internalError => { t with internalError := t.internalError + 1 }
  | .error => { t with error := t.error + 1 }
  | .warning => { t with warning := t.warning + 1 }
  | .note => { t with note := t.note + 1 }
  | .help => { t with help := t.help + 1 }

/-- Reports that tell of a failure, whoever is to blame. -/
def errors (t : Tally) : Nat := t.internalError + t.error

/-- Whether any report tells of a failure. -/
def hasErrors (t : Tally) : Bool := 0 < t.errors

end Tally

/-- Recipients of reports. -/
class Recipient (ρ : Type) where
  /-- Receive a report. -/
  record : Report → ρ → ρ
  /-- The reports received so far, by level. -/
  tally : ρ → Tally

/-- Receive reports in order. -/
def Recipient.recordAll {ρ : Type} [Recipient ρ] (reports : List Report) (r : ρ) : ρ :=
  reports.foldl (fun r report => record report r) r

/-! ### Keeping reports -/

/-- A recipient that keeps the reports, in order of arrival. -/
structure Buffer where
  reports : List Report := []
  tally : Tally := {}
deriving DecidableEq, Repr, Inhabited

instance : Recipient Buffer where
  record report b := ⟨b.reports ++ [report], b.tally.add report.level⟩
  tally := Buffer.tally

/-- The kept reports of a level, in order of arrival. -/
def Buffer.atLevel (b : Buffer) (level : Level) : List Report :=
  b.reports.filter (·.level = level)

/-! ### Showing reports -/

/-- Destinations of text that may refuse a text; one that is refused leaves nothing behind. -/
class Writer (ω : Type) where
  /-- Whether the text was written, and the destination afterwards. -/
  write : String → ω → Bool × ω

/-- A destination that takes every text. -/
instance : Writer String where
  write s out := (true, out ++ s)

/-- A recipient that writes each report as soon as it arrives. -/
structure Display (ω : Type) where
  out : ω
  tally : Tally := {}
  /-- Reports that could not be written. -/
  dropped : Nat := 0

instance {ω : Type} [Writer ω] : Recipient (Display ω) where
  record report d :=
    let (written, out) := Writer.write report.text d.out
    ⟨out, d.tally.add report.level, if written then d.dropped else d.dropped + 1⟩
  tally := Display.tally

end DocGraph
