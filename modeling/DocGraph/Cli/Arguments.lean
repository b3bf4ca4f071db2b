import DocGraph.Cli.Flag

namespace DocGraph.Cli

/-!
# Reading the command line

Options may stand anywhere among the other words.  A word that begins with two dashes is one option,
with its argument behind an equals sign or in the next word; one that begins with a single dash is a
row of letters, the first of which that takes an argument has it in the rest of the word or in the
next word.  Two dashes alone end the options, and a dash alone is no option.

* `UsageError` — why a command line cannot be understood;
* `Given`, `Arguments` — the options given, in order, and the other words;
* `Arguments.read` — what the words of a command line give.  A word that cannot be understood is
  refused before those behind it are read, and a repetition when all words have been read.
-/

/-- Why a command line cannot be understood. -/
inductive UsageError where
  /-- No option is called so, or a word is one too many. -/
  | unrecognized (name : String)
  /-- The command line ends where the argument of an option should stand. -/
  | argumentMissing (name : String)
  /-- An option that takes no argument has one. -/
  | unexpectedArgument (name : String)
  /-- An option is given twice. -/
  | repeated (flag : Flag)
  /-- A word that is needed is not there. -/
  | required (name : String)
deriving DecidableEq, Repr

/-- The wording of an error. -/
def UsageError.message : UsageError → String
  | .unrecognized name => s!"Unrecognized option: '{name}'"
  | .argumentMissing name => s!"Argument to option '{name}' missing"
  | .unexpectedArgument name => s!"Option '{name}' does not take an argument"
  | .repeated flag => s!"Option '{flag.name}' given more than once"
  | .required name => s!"Required option '{name}' missing"

/-- An option given, with its argument if it takes one. -/
structure Given where
  flag : Flag
  argument : Option String := none
deriving DecidableEq, Repr

/-- The words of a command line, understood. -/
structure Arguments where
  /-- The options, in order. -/
  given : List Given := []
  /-- The words that belong to no option, in order. -/
  free : List String := []
deriving DecidableEq, Repr

namespace Arguments

/-- Whether an option is given. -/
def has (a : Arguments) (f : Flag) : Bool := a.given.any (·.flag = f)

/-- The argument of an option. -/
def argument? (a : Arguments) (f : Flag) : Option String :=
  (a.given.find? (·.flag = f)).bind (·.argument)

end Arguments

/-! ### Single words -/

/-- The options that a word gives. -/
structure WordReading where
  given : List Given
  /-- The last option of the word, as it is called there, if its argument is the next word. -/
  pending : Option (Flag × String) := none
deriving DecidableEq, Repr

/-- The name in a word that begins with two dashes, and what stands behind the first equals sign. -/
def nameAndArgument (word : List Char) : String × Option String :=
  let name := String.ofList (word.takeWhile (· ≠ '='))
  match word.dropWhile (· ≠ '=') with
  | [] => (name, none)
  | _ :: argument => (name, some (String.ofList argument))

/-- Read what stands behind two dashes. -/
def readName (word : List Char) : Except UsageError WordReading :=
  let (name, argument) := nameAndArgument word
  match Flag.ofName? name with
  | none => .error (.unrecognized name)
  | some f =>
    match f.takesArgument, argument with
    | true, none => .ok ⟨[], some (f, name)⟩
    | false, some _ => .error (.unexpectedArgument name)
    | _, argument => .ok ⟨[⟨f, argument⟩], none⟩

/-- Read the letters behind a single dash. -/
def readLetters : List Char → Except UsageError WordReading
  | [] => .ok ⟨[], none⟩
  | c :: rest =>
    match Flag.ofLetter? c with
    | none => .error (.unrecognized c.toString)
    | some f =>
      if ! f.takesArgument then
        (readLetters rest).map fun r => { r with given := ⟨f, none⟩ :: r.given }
      else if rest.isEmpty then .ok ⟨[], some (f, c.toString)⟩
      else .ok ⟨[⟨f, some (String.ofList rest)⟩], none⟩

/-- Read a word that gives options; others are free. -/
def readWord? (word : String) : Option (Except UsageError WordReading) :=
  match word.toList with
  | '-' :: '-' :: name => some (readName name)
  | '-' :: c :: letters => some (readLetters (c :: letters))
  | _ => none

/-! ### Whole command lines -/

namespace Arguments

/-- Read all words, whether or not options are repeated. -/
def readAll : List String → Except UsageError Arguments
  | [] => .ok {}
  | word :: rest =>
    if word = "--" then .ok { free := rest }
    else match readWord? word with
      | none => (readAll rest).map fun a => { a with free := word :: a.free }
      | some (.error e) => .error e
      | some (.ok ⟨given, none⟩) =>
        (readAll rest).map fun a => { a with given := given ++ a.given }
      | some (.ok ⟨given, some (flag, name)⟩) =>
        match rest with
        | [] => .error (.argumentMissing name)
        | argument :: rest =>
          (readAll rest).map fun a =>
            { a with given := given ++ ⟨flag, some argument⟩ :: a.given }

/-- The first option, in the order of the list, that is given more than once. -/
def repeated? (a : Arguments) : Option Flag :=
  Flag.all.find? fun f => 1 < a.given.countP (·.flag = f)

/-- Read a command line. -/
def read (words : List String) : Except UsageError Arguments := do
  let a ← readAll words
  match a.repeated? with
  | some f => throw (.repeated f)
  | none => return a

end Arguments

end DocGraph.Cli
