import DocGraph.Markup.Error
import DocGraph.Schema.Violation
import DocGraph.Store.FileAccess

namespace DocGraph

/-!
# Fatal problems

* `Failure` — why there is no linked project, or why one that there is counts as failed;
* `Failure.source?` — the wording of the problem that a failure passes on.
-/

/-- Why a run failed. -/
inductive Failure where
  /-- A file cannot be found or opened. -/
  | inaccessible (path : String) (cause : IoError)
  /-- A file was opened, but its bytes cannot be read. -/
  | unreadable (path : String) (cause : IoError)
  /-- A file is not well-formed. -/
  | malformed (path : String) (cause : Markup.Error)
  /-- A file does not follow the schema. -/
  | invalid (cause : Violation)
  /-- There were warnings, which the user has denied. -/
  | warningsDenied (count : Nat)
deriving DecidableEq, Repr

namespace Failure

/-- The wording of bytes that cannot be read. -/
def readText (cause : IoError) : String := s!"I/O error: {cause.text}"

/-- The wording of a failure. -/
def message : Failure → String
  | .inaccessible path cause => s!"cannot read `{path}`: {cause.text}"
  | .unreadable path cause => s!"malformed XML in `{path}`: {readText cause}"
  | .malformed path cause => s!"malformed XML in `{path}`: {cause.message}"
  | .invalid cause => cause.message
  | .warningsDenied 1 => "1 warning was denied"
  | .warningsDenied n => s!"{n} warnings were denied"

/-- What is said below a failure. -/
def remarks : Failure → List Remark
  | .inaccessible .. => [.help "make sure that Doxygen was run with `GENERATE_XML = YES`"]
  | .unreadable .. => Markup.Error.advice
  | .malformed _ cause => Reportable.remarks cause
  | .invalid cause => cause.remarks
  | .warningsDenied _ => [.help "fix the warnings above or allow them"]

/-- The wording of the problem that a failure passes on, if it does. -/
def source? : Failure → Option String
  | .inaccessible _ cause => some cause.text
  | .unreadable _ cause => some (readText cause)
  | .malformed _ cause => some cause.message
  | .invalid cause => some cause.message
  | .warningsDenied _ => none

instance : Reportable Failure where
  message := message
  remarks := remarks

end Failure

end DocGraph
