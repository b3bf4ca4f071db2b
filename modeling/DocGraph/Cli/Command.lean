import DocGraph.Cli.Arguments
import DocGraph.Project.Settings

namespace DocGraph.Cli

/-!
# What the user asks for

* `Command` — list the options, or print the table of a project;
* `Command.ofWords` — the command that the words of a command line give.
-/

/-- What the user asks for. -/
inductive Command where
  /-- List the options. -/
  | usage
  /-- Write the table of the project in a directory, to standard output or to a file. -/
  | table (settings : Settings) (directory : String) (output : Option String)
deriving DecidableEq, Repr

namespace Command

/-- The one word that names the directory. -/
def directoryOf : List String → Except UsageError String
  | [] => .error (.required "INPUT_DIR")
  | [directory] => .ok directory
  | _ :: second :: _ => .error (.unrecognized second)

/-- The beginning of permalinks of anonymous namespaces, which may not be empty. -/
def prefixOf (a : Arguments) : Except UsageError String :=
  match a.argument? .anonymousPrefix with
  | none => .ok ({} : PermalinkStyle).anonymousPrefix
  | some "" => .error (.argumentMissing ("--" ++ Flag.anonymousPrefix.name))
  | some name => .ok name

/-- The command that arguments give. -/
def ofArguments (a : Arguments) : Except UsageError Command := do
  if a.has .help then return .usage
  let directory ← directoryOf a.free
  let anonymousPrefix ← prefixOf a
  let permalink : PermalinkStyle := { lowercase := ! a.has .keepCase, anonymousPrefix }
  return .table { permalink, denyWarnings := a.has .denyWarnings } directory (a.argument? .output)

/-- The command that the words of a command line give. -/
def ofWords (words : List String) : Except UsageError Command := do
  ofArguments (← Arguments.read words)

end Command

end DocGraph.Cli
