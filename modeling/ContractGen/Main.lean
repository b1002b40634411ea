import ContractGen.Command.Run

/-!
# The program

The files of the machine as `Files.Access`, and `main`, which runs a command line on them. Nothing
is decided here: `Command.run` says what to do, and what to print.
-/

namespace ContractGen

namespace Files

/-- The error behind a failed operation of the machine. Error numbers come with either sign. -/
def Error.ofFailure (e : IO.Error) : Error :=
  match e with
  | .noFileOrDirectory .. => .notFound
  | .alreadyExists .. => .alreadyExists
  | .inappropriateType _ code _ =>
    if code = 20 || code = -20 then .notDirectory
    else if code = 21 || code = -21 then .isDirectory
    else .other (toString e)
  | _ => .other (toString e)

/-- An operation of the machine with its failure as a value. -/
def attempt {α : Type} (action : IO α) : IO (Except Error α) := do
  match ← action.toBaseIO with
  | .ok a => return .ok a
  | .error e => return .error (.ofFailure e)

/-- What the machine tells of a path; there is nothing at an empty one. -/
def typeOf (p : Path) : IO (Option IO.FS.FileType) := do
  if p.isEmpty then return none
  match ← ((← IO.currentDir) / p).metadata.toBaseIO with
  | .ok data => return some data.type
  | .error _ => return none

/-- The text of a file of the machine. -/
def readMachineText (p : Path) : IO (Except Error String) := do
  match ← attempt (IO.FS.readBinFile p) with
  | .error e => return .error e
  | .ok bytes =>
    match String.fromUTF8? bytes with
    | some text => return .ok text
    | none => return .error .invalidText

/-- The names in a directory of the machine. -/
def listMachineDir (p : Path) : IO (Except Error (List String)) :=
  attempt do
    let entries ← ((← IO.currentDir) / p).readDir
    return entries.toList.map fun entry => entry.fileName

/-- The files of the machine. -/
def machine : Access IO where
  currentDir := return (← IO.currentDir).toString
  isFile p := do
    match ← typeOf p with
    | some .file => return true
    | _ => return false
  isDir p := do
    match ← typeOf p with
    | some .dir => return true
    | _ => return false
  readText := readMachineText
  listDir := listMachineDir
  createDir p := attempt (IO.FS.createDir p)
  writeText p text := attempt (IO.FS.writeFile p text)

end Files

end ContractGen

open ContractGen in
/-- Run a command line, and print what it says. Log lines and errors go to standard error; a wrong
command line gets the help text there. -/
def main (args : List String) : IO UInt32 := do
  let outcome ← Command.run Template.Library.engine Files.machine args
  for line in outcome.logs do
    IO.eprintln line.text
  IO.print outcome.stdout
  IO.eprint (outcome.stderr.getD Command.helpText)
  return outcome.exit.toUInt32
