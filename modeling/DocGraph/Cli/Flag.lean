namespace DocGraph.Cli

/-!
# Options of the command line

* `Flag` — the options, with their letters, names and arguments;
* `Flag.ofLetter?`, `Flag.ofName?` — the option that a user means;
* `usage` — the text that lists them.
-/

/-- An option of the command line. -/
inductive Flag where
  /-- Where the table goes. -/
  | output
  /-- Leave permalinks in the case of the names. -/
  | keepCase
  /-- How permalinks of anonymous namespaces begin. -/
  | anonymousPrefix
  /-- Fail if there were warnings. -/
  | denyWarnings
  /-- List the options. -/
  | help
deriving DecidableEq, Repr

namespace Flag

/-- Every option, in the order of the list. -/
def all : List Flag := [.output, .keepCase, .anonymousPrefix, .denyWarnings, .help]

/-- The name of an option, behind two dashes. -/
def name : Flag → String
  | .output => "output"
  | .keepCase => "keep-case"
  | .anonymousPrefix => "anonymous-prefix"
  | .denyWarnings => "deny-warnings"
  | .help => "help"

/-- The letter of an option, behind one dash. -/
def letter? : Flag → Option Char
  | .output => some 'o'
  | .help => some 'h'
  | _ => none

/-- What the argument of an option is called, if it takes one. -/
def argument? : Flag → Option String
  | .output => some "FILE"
  | .anonymousPrefix => some "NAME"
  | _ => none

/-- What an option does. -/
def description : Flag → String
  | .output => "write permalink table to FILE"
  | .keepCase => "do not fold permalinks to lower case"
  | .anonymousPrefix => "permalink prefix of anonymous namespaces"
  | .denyWarnings => "fail if any warning is reported"
  | .help => "print this help menu"

/-- Whether an option takes an argument. -/
def takesArgument (f : Flag) : Bool := f.argument?.isSome

/-- The option with a letter. -/
def ofLetter? (c : Char) : Option Flag := all.find? (·.letter? = some c)

/-- The option with a name.  A name of one letter is that letter. -/
def ofName? (name : String) : Option Flag :=
  match name.toList with
  | [c] => ofLetter? c
  | _ => all.find? (·.name = name)

/-! ### The list of options -/

/-- The column at which descriptions begin. -/
def descriptionColumn : Nat := 24

/-- How an option is written. -/
def synopsis (f : Flag) : String :=
  let letter := match f.letter? with
    | some c => s!"-{c}, "
    | none => "    "
  "    " ++ letter ++ "--" ++ f.name ++ " " ++ f.argument?.getD ""

/-- How an option is written and what it does.  Where the former is too long, the latter stands on a
line of its own. -/
def row (f : Flag) : String :=
  let width := f.synopsis.length
  let gap :=
    if width < descriptionColumn then String.ofList (List.replicate (descriptionColumn - width) ' ')
    else "\n" ++ String.ofList (List.replicate descriptionColumn ' ')
  f.synopsis ++ gap ++ f.description

end Flag

/-- How the program is called, with all options. -/
def usage (program : String) : String :=
  s!"Usage: {program} [OPTIONS] INPUT_DIR\n\nOptions:\n"
    ++ "\n".intercalate (Flag.all.map Flag.row) ++ "\n"

end DocGraph.Cli
