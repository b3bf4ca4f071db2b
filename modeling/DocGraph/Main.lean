import DocGraph.Cli.Run

/-!
# The program

Reads and writes the files of the system it runs on; all decisions are those of `DocGraph.Cli.run`.
-/

namespace DocGraph.Cli

/-- The wording of a failure with a number. -/
def numberedText (code : UInt32) (details : String) : String := s!"{details} (os error {code})"

/-- The number of the failure of a path that goes on beyond a file. -/
def notADirectoryCode : UInt32 := 20

/-- The failure that the system tells of. -/
def failureOf : IO.Error → IoError
  | .noFileOrDirectory _ code details => ⟨.notFound, numberedText code details⟩
  | .permissionDenied _ code details => ⟨.permissionDenied, numberedText code details⟩
  | .inappropriateType _ code details =>
    ⟨if code = notADirectoryCode then .notADirectory else .isADirectory,
      numberedText code details⟩
  | .alreadyExists _ code details | .invalidArgument _ code details
  | .resourceExhausted _ code details | .noSuchThing _ code details
  | .interrupted _ code details | .otherError code details | .resourceBusy code details
  | .resourceVanished code details | .unsupportedOperation code details
  | .hardwareFault code details | .unsatisfiedConstraints code details
  | .illegalOperation code details | .protocolError code details | .timeExpired code details =>
    ⟨.other, numberedText code details⟩
  | .unexpectedEof => ⟨.other, "unexpected end of file"⟩
  | .userError text => ⟨.other, text⟩

/-- What an action yields, or the failure that the system tells of. -/
def attempt {α : Type} (action : IO α) : IO (Except IoError α) := do
  try return .ok (← action)
  catch e => return .error (failureOf e)

/-- Open a file and read it; a directory can be opened, but not be read. -/
def readSystemFile (path : String) : IO (Except IoError FileBody) := do
  match ← attempt (IO.FS.Handle.mk path .read) with
  | .error e => return .error e
  | .ok handle => return .ok ((← attempt handle.readBinToEnd).map (·.toList))

/-- The files of the system. -/
def systemFiles : Workspace IO where
  canonical path := attempt do return (← IO.FS.realPath path).toString
  openFile := readSystemFile
  writeFile path text := attempt (IO.FS.writeFile path text)

end DocGraph.Cli

/-- Run on the words of the command line. -/
def main (words : List String) : IO UInt32 := do
  let program := (← IO.appPath).fileName.getD ""
  let outcome ← DocGraph.Cli.run DocGraph.Cli.systemFiles program words
  IO.print outcome.output
  IO.eprint outcome.errors
  return outcome.exitCode.toUInt32
