namespace DocGraph

/-!
# Levels of severity

* `Level` — how grave a report is, or what kind of remark stands below it;
* `Level.rank` — the number of a level: the lower, the graver;
* `Level.name` — the word that opens a line of a report.
-/

/-- How grave a report or a remark is. -/
inductive Level where
  /-- A fault of this program, which the user may work around but not mend. -/
  | internalError
  /-- A fault of the input. -/
  | error
  /-- A problem that leaves the output usable but poorer. -/
  | warning
  /-- Context of another message. -/
  | note
  /-- Advice on how to mend a problem. -/
  | help
deriving DecidableEq, Repr

namespace Level

/-- Reports are errors unless they say otherwise. -/
instance : Inhabited Level := ⟨.error⟩

/-- Every level, gravest first. -/
def all : List Level := [.internalError, .error, .warning, .note, .help]

/-- The number of a level, from one for the gravest. -/
def rank : Level → Nat
  | .internalError => 1
  | .error => 2
  | .warning => 3
  | .note => 4
  | .help => 5

/-- The word for a level. -/
def name : Level → String
  | .internalError => "internal error"
  | .error => "error"
  | .warning => "warning"
  | .note => "note"
  | .help => "help"

end Level

end DocGraph
