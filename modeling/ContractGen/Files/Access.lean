import ContractGen.Files.Path

/-!
# Access to files

`Access m` is what the program asks of a file system, each operation in the monad `m`. Operations
fail with an `Error`.
-/

namespace ContractGen

namespace Files

/-- Why an operation on files fails. -/
inductive Error where
  /-- A name on the path does not exist. -/
  | notFound
  /-- A name on the path is no directory. -/
  | notDirectory
  /-- The path is a directory. -/
  | isDirectory
  /-- The path exists already. -/
  | alreadyExists
  /-- The file is no text. -/
  | invalidText
  /-- Any other reason. -/
  | other (message : String)
deriving DecidableEq, Repr

/-- The wording of an error. -/
def Error.message : Error → String
  | .notFound => "No such file or directory (os error 2)"
  | .notDirectory => "Not a directory (os error 20)"
  | .isDirectory => "Is a directory (os error 21)"
  | .alreadyExists => "File exists (os error 17)"
  | .invalidText => "stream did not contain valid UTF-8"
  | .other message => message

/-- The operations of a file system. -/
structure Access (m : Type → Type) where
  /-- The working directory. -/
  currentDir : m Path
  /-- Whether a path is a file. -/
  isFile : Path → m Bool
  /-- Whether a path is a directory. -/
  isDir : Path → m Bool
  /-- The text of a file. -/
  readText : Path → m (Except Error String)
  /-- The names in a directory, in any order. -/
  listDir : Path → m (Except Error (List String))
  /-- Create a directory in an existing one. -/
  createDir : Path → m (Except Error Unit)
  /-- Write the text of a file, which is created if need be. -/
  writeText : Path → String → m (Except Error Unit)

namespace Access

variable {m : Type → Type} [Monad m]

/-- Whether there is anything at a path. -/
def pathExists (fs : Access m) (p : Path) : m Bool := do
  if ← fs.isFile p then return true else fs.isDir p

/-- The nearest directories that are missing, given a path and its parents, nearest first. The
first that can be made is made at once. -/
def missingDirs (fs : Access m) : List Path → m (Except Error (List Path))
  | [] => return .ok []
  | p :: rest => do
    if p.isEmpty then return .ok []
    match ← fs.createDir p with
    | .ok () => return .ok []
    | .error .notFound => return (← missingDirs fs rest).map (p :: ·)
    | .error e => if ← fs.isDir p then return .ok [] else return .error e

/-- Create directories, the last of a list first. -/
def createDirs (fs : Access m) : List Path → m (Except Error Unit)
  | [] => return .ok ()
  | p :: rest => do
    match ← createDirs fs rest with
    | .error e => return .error e
    | .ok () =>
      match ← fs.createDir p with
      | .ok () => return .ok ()
      | .error e => if ← fs.isDir p then return .ok () else return .error e

/-- Create a directory and all that are missing above it. -/
def createDirAll (fs : Access m) (p : Path) : m (Except Error Unit) := do
  match ← fs.missingDirs p.ancestors with
  | .error e => return .error e
  | .ok missing => fs.createDirs missing

/-- Write the text of a file, and create the directory of the file if that is missing. -/
def writeOutput (fs : Access m) (p : Path) (text : String) : m (Except Error Unit) := do
  match p.parent with
  | none => fs.writeText p text
  | some dir =>
    if dir.isEmpty || (← fs.pathExists dir) then fs.writeText p text
    else
      match ← fs.createDirAll dir with
      | .error e => return .error e
      | .ok () => fs.writeText p text

/-- The first of some paths that is a file. -/
def firstFile (fs : Access m) : List Path → m (Option Path)
  | [] => return none
  | p :: rest => do if ← fs.isFile p then return some p else firstFile fs rest

end Access

end Files

end ContractGen
