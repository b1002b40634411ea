import ContractGen.Code.Language
import ContractGen.Files.Access
import ContractGen.Settings
import ContractGen.Toml.Reader

/-!
# Configuration

A configuration is the table `codegen` of a TOML document. That may also be written as the array of
its fields in order. Fields with other names are refused there, while everything else in the
document is ignored.
-/

namespace ContractGen

open Files (Access Path)

/-- Why there is no configuration. -/
inductive ConfigError where
  /-- The file cannot be read. -/
  | unreadable (error : Files.Error)
  /-- The document is malformed, or does not fit. -/
  | malformed
  /-- The language is unknown. -/
  | unsupportedLanguage (name : String)
deriving DecidableEq, Repr

/-- The wording of an error. -/
def ConfigError.message : ConfigError → String
  | .unreadable error => "IO error: " ++ error.message
  | .malformed => "Invalid configuration: TOML parse error"
  | .unsupportedLanguage name => "Invalid configuration: Unsupported language: " ++ name

/-- The choices that a file makes. -/
structure Config where
  /-- The language of the code. -/
  language : Language := .csharp
  /-- The namespace that types are declared in. -/
  scope : Option String := none
  /-- The utilities that are not generated. -/
  excluded : List String := []
  /-- Whether the code has nullable annotations. -/
  nullableAnnotations : Bool := false
  /-- A name for the root, if it has none. -/
  rootTypeName : Option String := none
  /-- The format of plain dates. -/
  dateFormat : Option String := none
  /-- The directory of templates. -/
  templateDirectory : Option Path := none
deriving DecidableEq, Repr

namespace Config

open Toml (Value)

/-! ### Fields -/

/-- A string. -/
def text? : Value → Option String
  | .string s => some s
  | _ => none

/-- A truth value. -/
def flag? : Value → Option Bool
  | .boolean b => some b
  | _ => none

/-- An array of strings. -/
def texts? : Value → Option (List String)
  | .array items => items.mapM text?
  | _ => none

/-- The fields of the table, as they are read: the language is still a name. -/
structure Fields where
  /-- The name of the language. -/
  language : Option String := none
  /-- All other choices. -/
  config : Config := {}

/-- The names of the fields, in order. -/
def fieldNames : List String := [
  "language", "namespace", "excluded_type_names", "nullable_annotations", "root_type_name",
  "date_format", "template_directory"]

/-- Read one field. -/
def setField (f : Fields) (entry : String × Value) : Option Fields := do
  let c := f.config
  let v := entry.2
  match entry.1 with
  | "language" => return { f with language := some (← text? v) }
  | "namespace" => return { f with config := { c with scope := some (← text? v) } }
  | "excluded_type_names" => return { f with config := { c with excluded := ← texts? v } }
  | "nullable_annotations" =>
    return { f with config := { c with nullableAnnotations := ← flag? v } }
  | "root_type_name" => return { f with config := { c with rootTypeName := some (← text? v) } }
  | "date_format" => return { f with config := { c with dateFormat := some (← text? v) } }
  | "template_directory" =>
    return { f with config := { c with templateDirectory := some (← text? v) } }
  | _ => none

/-- The fields of a value: a table, or an array of the fields in order. -/
def fields? : Value → Option Fields
  | .table _ entries => entries.foldlM setField {}
  | .array items => (fieldNames.zip items).foldlM setField {}
  | .tables items => (fieldNames.zip items).foldlM setField {}
  | _ => none

/-- The fields of a document, if there is nothing wrong with it. -/
def documentFields? : Value → Option Fields
  | .table _ entries =>
    let others := entries.filter fun entry => entry.1 != "codegen"
    if Value.entriesFit others then
      match entries.lookup "codegen" with
      | none => some {}
      | some v => fields? v
    else none
  | _ => none

/-! ### Configurations -/

/-- The configuration of some fields. -/
def ofFields (f : Fields) : Except ConfigError Config :=
  match f.language with
  | none => .ok f.config
  | some name =>
    match Language.ofName? name with
    | some language => .ok { f.config with language }
    | none => .error (.unsupportedLanguage name)

/-- The configuration of a TOML document. -/
def parse (text : String) : Except ConfigError Config :=
  match (Toml.parse text).bind documentFields? with
  | some f => ofFields f
  | none => .error .malformed

/-- The configuration with a relative directory of templates taken from the directory `dir`. -/
def relativeTo (dir : Path) (c : Config) : Config :=
  { c with templateDirectory := c.templateDirectory.map dir.join }

/-- The configuration of a file, whose directory a relative directory of templates is taken
from. -/
def load {m : Type → Type} [Monad m] (fs : Access m) (path : Path) :
    m (Except ConfigError Config) := do
  match ← fs.readText path with
  | .error e => return .error (.unreadable e)
  | .ok text =>
    return (parse text).map fun c =>
      match path.parent with
      | some dir => c.relativeTo dir
      | none => c

/-- Add a name to an ascending list. -/
def insertName (name : String) : List String → List String
  | [] => [name]
  | n :: rest =>
    if name < n then name :: n :: rest
    else if name = n then n :: rest
    else n :: insertName name rest

/-- Names in ascending order, each once. -/
def sortedNames (names : List String) : List String :=
  names.foldl (fun sorted name => insertName name sorted) []

/-- The settings that a configuration makes, apart from templates. -/
def settings (c : Config) : Settings where
  scope := c.scope
  excluded := sortedNames c.excluded
  nullableAnnotations := c.nullableAnnotations
  rootTypeName := c.rootTypeName
  dateFormat := c.dateFormat.getD Settings.defaultDateFormat

end Config

end ContractGen
