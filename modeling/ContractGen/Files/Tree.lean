import ContractGen.Files.Access

/-!
# File trees

A `Tree` is a file system as data: what stands at each place, and the working directory. A place
is the list of names that leads to it from the root. `Tree.access` answers every operation the way
a file system does: a path is followed name by name, and whatever it passes has to be a directory.
-/

namespace ContractGen

namespace Files

/-- What stands at a place. -/
inductive Content where
  /-- A directory. -/
  | directory
  /-- A file with a text. -/
  | text (s : String)
  /-- A file that is no text. -/
  | binary
deriving DecidableEq, Repr

/-- A place: the names that lead to it from the root. -/
abbrev Place := List String

/-- A file system and a working directory. -/
structure Tree where
  /-- What stands at the places other than the root. -/
  entries : List (Place × Content)
  /-- The working directory. -/
  workDir : Place
deriving DecidableEq, Repr

namespace Tree

/-- What stands at a place; the root is a directory. -/
def at? (t : Tree) (place : Place) : Option Content :=
  if place.isEmpty then some .directory else t.entries.lookup place

/-- The tree with something put at a place. -/
def put (t : Tree) (place : Place) (content : Content) : Tree :=
  { t with entries := (place, content) :: t.entries.filter fun entry => entry.1 != place }

/-- The tree with a directory at a place and above it, where there is nothing yet. -/
def putDirs (t : Tree) (place : Place) : Tree :=
  ((List.range place.length).map fun n => place.take (n + 1)).foldl
    (fun t p => if (t.at? p).isSome then t else t.put p .directory) t

/-- Follow one part of a path. -/
def step (t : Tree) (place : Place) (part : String) : Except Error Place :=
  match t.at? place with
  | some .directory =>
    if Path.isIdle part then .ok place
    else if part = ".." then .ok place.dropLast
    else if (t.at? (place ++ [part])).isSome then .ok (place ++ [part])
    else .error .notFound
  | some _ => .error .notDirectory
  | none => .error .notFound

/-- The parts of a path from the root. -/
def partsFromRoot (t : Tree) (p : Path) : List String :=
  if p.isAbsolute then p.parts else t.workDir ++ p.parts

/-- The absolute path of a place. -/
def pathOf (place : Place) : Path := "/" ++ String.intercalate "/" place

/-- The place of a path. -/
def locate (t : Tree) (p : Path) : Except Error Place :=
  if p.isEmpty then .error .notFound else (t.partsFromRoot p).foldlM t.step []

/-- What stands at a path. -/
def contentOf (t : Tree) (p : Path) : Except Error Content := do
  match t.at? (← t.locate p) with
  | some content => return content
  | none => throw .notFound

/-- The directory in which a path names something, and that name; there is no name if the path
ends at a directory. -/
def locateName (t : Tree) (p : Path) : Except Error (Place × Option String) :=
  if p.isEmpty then .error .notFound
  else
    match ((t.partsFromRoot p).reverse.dropWhile String.isEmpty) with
    | [] => .ok ([], none)
    | last :: before => do
      let dir ← before.reverse.foldlM t.step []
      -- an idle step checks that the place is a directory
      let dir ← t.step dir ""
      return (dir, if last = "." || last = ".." then none else some last)

/-- Whether a path ends with a slash. -/
def endsInSlash (p : Path) : Bool := p.toList.getLast? == some '/'

/-- Create a directory. -/
def createDir (t : Tree) (p : Path) : Except Error Tree := do
  match ← t.locateName p with
  | (_, none) => throw .alreadyExists
  | (dir, some name) =>
    let place := dir ++ [name]
    if (t.at? place).isSome then throw .alreadyExists else return t.put place .directory

/-- Write the text of a file. -/
def writeText (t : Tree) (p : Path) (text : String) : Except Error Tree := do
  match ← t.locateName p with
  | (_, none) => throw .isDirectory
  | (dir, some name) =>
    if endsInSlash p then throw .isDirectory
    else
      let place := dir ++ [name]
      if t.at? place = some .directory then throw .isDirectory
      else return t.put place (.text text)

/-- The text of a file. -/
def readText (t : Tree) (p : Path) : Except Error String := do
  match ← t.contentOf p with
  | .directory => throw .isDirectory
  | .binary => throw .invalidText
  | .text s => return s

/-- The names in a directory. -/
def listDir (t : Tree) (p : Path) : Except Error (List String) := do
  let place ← t.locate p
  match t.at? place with
  | some .directory =>
    return t.entries.filterMap fun entry =>
      if entry.1.dropLast = place && !entry.1.isEmpty then entry.1.getLast? else none
  | some _ => throw .notDirectory
  | none => throw .notFound

/-- Replace the tree by a changed one, unless that failed. -/
def update (change : Tree → Except Error Tree) : StateM Tree (Except Error Unit) :=
  fun t =>
    match change t with
    | .ok t => (.ok (), t)
    | .error e => (.error e, t)

/-- Access to the tree that is the state. -/
def access : Access (StateM Tree) where
  currentDir := return pathOf (← get).workDir
  isFile p := do
    return match (← get).contentOf p with
      | .ok .directory => false
      | .ok _ => true
      | .error _ => false
  isDir p := do
    return match (← get).contentOf p with
      | .ok .directory => true
      | _ => false
  readText p := do return (← get).readText p
  listDir p := do return (← get).listDir p
  createDir p := update (·.createDir p)
  writeText p text := update (·.writeText p text)

end Tree

end Files

end ContractGen
