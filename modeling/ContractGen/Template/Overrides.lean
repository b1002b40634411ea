import ContractGen.Files.Access
import ContractGen.Template.Engine
import ContractGen.Text.Quoted

/-!
# Templates from a directory

A directory of templates has a folder for each language; a file `NAME.tera` in there is the
template `NAME`. `Engine.load` adds all of them to the built-in templates, in the order of the names
of the files. A directory without such a folder has no templates.
-/

namespace ContractGen

namespace Template

open Files (Access)

/-- Why the templates of a directory cannot be loaded. -/
inductive LoadError where
  /-- A template cannot be read. -/
  | unreadable (path : Files.Path) (error : Files.Error)
  /-- A template is malformed. -/
  | malformed (path : Files.Path)
deriving DecidableEq, Repr

/-- A path as a message cites it: a quoted text in which single quotes are escaped, too. -/
def citedPath (path : Files.Path) : String :=
  let cited := path.toList.flatMap fun c => if c = '\x27' then ['\\', c] else Text.quotedChar c
  String.ofList ('"' :: cited ++ ['"'])

/-- The wording of an error. -/
def LoadError.message : LoadError → String
  | .unreadable path error =>
    "Failed to read template '" ++ citedPath path ++ "': " ++ error.message
  | .malformed path => "Failed to parse " ++ citedPath path

/-- The extension of template files. -/
def extension : String := "tera"

namespace Engine

variable {m : Type → Type} [Monad m]

/-- Add the templates among the files of a folder. -/
def loadFiles (engine : Engine) (fs : Access m) (folder : Files.Path) :
    engine.Templates → List String → m (Except LoadError engine.Templates)
  | templates, [] => return .ok templates
  | templates, file :: rest =>
    match Files.Path.stem? extension file with
    | none => engine.loadFiles fs folder templates rest
    | some name => do
      let path := folder.join file
      match ← fs.readText path with
      | .error e => return .error (.unreadable path e)
      | .ok text =>
        match engine.add templates name text with
        | none => return .error (.malformed path)
        | some templates => engine.loadFiles fs folder templates rest

/-- The templates of a directory, in place of the built-in ones of the same name. -/
def load (engine : Engine) (fs : Access m) (dir : Files.Path) :
    m (Except LoadError engine.Templates) := do
  let folder := dir.join Language.csharp.folder
  if ← fs.isDir folder then
    match ← fs.listDir folder with
    | .error e => return .error (.unreadable folder e)
    | .ok names =>
      engine.loadFiles fs folder engine.builtin (names.mergeSort fun a b => decide (a ≤ b))
  else return .ok engine.builtin

end Engine

end Template

end ContractGen
