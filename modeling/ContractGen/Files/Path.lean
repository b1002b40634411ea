import ContractGen.Text.Split

/-!
# Paths

A path is a text: names with slashes between them, absolute if it starts with a slash. Paths are
joined and cut as texts, without a look at any file. What is left of a path is never changed: `.`
and `..` stay where they are, and only slashes and dots at a cut are dropped.
-/

namespace ContractGen

namespace Files

/-- A path. -/
abbrev Path := String

namespace Path

/-- Whether a path starts at the root. -/
def isAbsolute (p : Path) : Bool := p.toList.head? == some '/'

/-- The path `p`, taken from the directory `dir` unless it is absolute. -/
def join (dir p : Path) : Path :=
  if isAbsolute p || dir.isEmpty then p
  else if dir.toList.getLast? == some '/' then dir ++ p
  else dir ++ "/" ++ p

/-- The parts of a path between slashes. -/
def parts (p : Path) : List String :=
  (Text.splitBy (· == '/') p.toList).map String.ofList

/-- Whether a part of a path says nothing: it is empty, or stays in the same directory. -/
def isIdle (part : String) : Bool := part.isEmpty || part = "."

/-- The start of a path that no cut reaches, a slash or a dot, and the rest. -/
def splitStart (p : Path) : String × String :=
  match p.toList with
  | '/' :: rest => ("/", String.ofList rest)
  | ['.'] => (".", "")
  | '.' :: '/' :: rest => (".", String.ofList ('/' :: rest))
  | _ => ("", p)

/-- Parts without the idle ones at the end. -/
def dropIdleEnd (ps : List String) : List String := (ps.reverse.dropWhile isIdle).reverse

/-- The path without its last name. There is none if the path has no name, unless it is a dot. -/
def parent (p : Path) : Option Path :=
  let (start, rest) := splitStart p
  match (dropIdleEnd (parts rest)).reverse with
  | [] => if start = "." then some "" else none
  | _ :: before => some (start ++ String.intercalate "/" (dropIdleEnd before.reverse))

/-- The parents of a path, nearest first, at most `n`. -/
def parents : Nat → Path → List Path
  | 0, _ => []
  | n + 1, p =>
    match parent p with
    | some q => q :: parents n q
    | none => []

/-- A path and its parents, nearest first; every parent is shorter than its child. -/
def ancestors (p : Path) : List Path := p :: parents p.length p

/-- The name before the extension `extension`, of a file name with that extension. A file name
that starts with its only dot has no extension. -/
def stem? (extension name : String) : Option String :=
  match (Text.splitBy (· == '.') name.toList).reverse with
  | last :: before :: more =>
    if String.ofList last = extension && !(more.isEmpty && before.isEmpty) then
      some (String.intercalate "." ((before :: more).reverse.map String.ofList))
    else none
  | _ => none

end Path

end Files

end ContractGen
