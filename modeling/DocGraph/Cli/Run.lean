import DocGraph.Cli.Command
import DocGraph.Graph.Table
import DocGraph.Project.Link
import DocGraph.Project.Load

namespace DocGraph.Cli

/-!
# Running a command

* `RunError` — why a run fails, with its exit code;
* `Outcome` — what a run leaves behind;
* `run` — runs the program on the words of a command line.
-/

/-! ### Failures -/

/-- Why a run fails. -/
inductive RunError where
  /-- The project cannot be read, or its warnings are denied. -/
  | project (cause : Failure)
  /-- The table cannot be written. -/
  | output (path : String) (cause : IoError)
deriving DecidableEq, Repr

namespace RunError

/-- The wording of an error. -/
def message : RunError → String
  | .project cause => cause.message
  | .output path cause => s!"cannot write `{path}`: {cause.text}"

/-- What is said below an error. -/
def remarks : RunError → List Remark
  | .project cause => cause.remarks
  | .output .. => []

instance : Reportable RunError where
  message := message
  remarks := remarks

end RunError

namespace ExitCode

/-- All went well. -/
def ok : Nat := 0

/-- The command line cannot be understood. -/
def usage : Nat := 64

/-- The input is faulty. -/
def badData : Nat := 65

/-- There is no input. -/
def noInput : Nat := 66

/-- The output cannot be written. -/
def cannotCreate : Nat := 73

/-- The input cannot be read. -/
def ioError : Nat := 74

end ExitCode

/-- The exit code for an error. -/
def RunError.exitCode : RunError → Nat
  | .project (.inaccessible _ cause) =>
    if cause.kind = .notFound then ExitCode.noInput else ExitCode.ioError
  | .project _ => ExitCode.badData
  | .output .. => ExitCode.cannotCreate

/-! ### Runs -/

/-- What a run leaves behind, files apart. -/
structure Outcome where
  exitCode : Nat := ExitCode.ok
  output : String := ""
  errors : String := ""
deriving DecidableEq, Repr

/-- A project that has been loaded and linked, or why it has not, with the recipient. -/
abbrev Linked := Except Failure Graph × Display String

variable {m : Type → Type} [Monad m]

/-- Load and link the project in a directory. -/
def linkDirectory (files : FileAccess m) (settings : Settings) (directory : String) : m Linked := do
  let recipient : Display String := { out := "" }
  let (loaded, _) ← (Project.load files settings directory).run.run {}
  match loaded with
  | .error e => return (.error e, recipient)
  | .ok loaded =>
    match Project.link settings loaded.roots recipient with
    | .error e => return (.error e, recipient)
    | .ok (graph, recipient) => return (.ok graph, recipient)

/-- Write the table where the user wants it; what goes to standard output is returned. -/
def writeTable (w : Workspace m) (table : String) : Option String → m (Except RunError String)
  | none => return .ok table
  | some path => do
    return (← w.writeFile path table).map (fun _ => "") |>.mapError (.output path)

/-- What an error leaves behind, when `output` has been written and `recipient` has the warnings. -/
def failed (directory output : String) (recipient : Display String) (e : RunError) : Outcome where
  exitCode := e.exitCode
  output
  errors := (Recipient.record (Reportable.report e) recipient).out
    ++ s!"fatal: failed to process `{directory}`\n"

/-- Print the table of the project in a directory.  Denied warnings count when it is written. -/
def runTable (w : Workspace m) (settings : Settings) (directory : String) (output : Option String) :
    m Outcome := do
  let (linked, recipient) ← linkDirectory w.toFileAccess settings directory
  match linked with
  | .error e => return failed directory "" recipient (.project e)
  | .ok graph =>
    match ← writeTable w graph.table output with
    | .error e => return failed directory "" recipient e
    | .ok shown =>
      match Project.verdict settings recipient with
      | .error e => return failed directory shown recipient (.project e)
      | .ok () => return { output := shown, errors := recipient.out }

/-- Run the program, which goes by a name, on the words that follow its name. -/
def run (w : Workspace m) (program : String) (words : List String) : m Outcome :=
  match Command.ofWords words with
  | .error e => return ⟨ExitCode.usage, usage program ++ "\n", e.message ++ "\n"⟩
  | .ok .usage => return { output := usage program ++ "\n" }
  | .ok (.table settings directory output) => runTable w settings directory output

end DocGraph.Cli
