import ContractGen.Code.Language
import ContractGen.Template.Builtin.Contracts
import ContractGen.Template.Builtin.File
import ContractGen.Template.Builtin.Unions
import ContractGen.Template.Builtin.Utilities
import ContractGen.Template.Render

/-!
# Template libraries

A library holds templates by name. `Library.builtin` has a template for everything that is
generated; a template in front of another of the same name replaces it.
-/

namespace ContractGen

namespace Template

open Json (Value)

/-- The names of templates. -/
def Name.file : String := "File"

/-- The template of classes. -/
def Name.class : String := "Class"

/-- The template of enumerations. -/
def Name.enum : String := "Enum"

/-- The template of unions with a name. -/
def Name.namedUnion : String := "OneOfNamed"

/-- The template of unions declared in place. -/
def Name.valueUnion : String := "OneOfAnonymous"

/-- The template of the base types of unions. -/
def Name.abstractUnion : String := "OneOfBase"

/-- Templates by name. -/
abbrev Library := List (String × Template)

namespace Library

open Template.Builtin

/-- The templates for everything that is generated. -/
def builtin : Library := [
  (Name.file, fileTemplate),
  (Name.class, classTemplate),
  (Name.enum, enumTemplate),
  (Name.namedUnion, namedUnionTemplate),
  (Name.valueUnion, valueUnionTemplate),
  (Name.abstractUnion, abstractUnionTemplate),
  ("OneOfConverter", oneOfConverterTemplate),
  ("JsonInheritanceAttribute", inheritanceAttributeTemplate),
  ("JsonInheritanceConverter", inheritanceConverterTemplate),
  ("DateFormatConverter", dateFormatConverterTemplate)]

end Library

/-- Why a template of a library cannot be rendered. -/
inductive Error where
  /-- The model is no object. -/
  | noObject
  /-- There is no template of the name. -/
  | unknown (name : String)
  /-- The template cannot be filled with the model. -/
  | failed (name : String) (error : RenderError)
deriving DecidableEq, Repr

/-- The name of a template with its folder. -/
def qualifiedName (name : String) : String := Language.csharp.folder ++ "/" ++ name

/-- The wording of why a template cannot be filled. -/
def RenderError.message (template : String) : RenderError → String
  | .undefined path =>
    "Variable `" ++ path.text ++ "` not found in context while rendering '" ++ template ++ "'"
  | .noItems path =>
    "Tried to iterate on a container (`" ++ path.text ++ "`) that has a unsupported type"
  | .overObject path =>
    "Tried to iterate using key value on variable `" ++ path.text ++
      "`, but it is missing a key"

/-- The wording of an error. -/
def Error.message : Error → String
  | .noObject => "Creating a Context from a Value/Serialize requires it being a JSON object"
  | .unknown name => "Template '" ++ qualifiedName name ++ "' not found"
  | .failed name error =>
    let template := qualifiedName name
    "Failed to render '" ++ template ++ "': " ++ error.message template

/-- Fill the template of a name with a model. -/
def Library.render (library : Library) (name : String) (model : Value) : Except Error String :=
  match model with
  | .object _ =>
    match library.lookup name with
    | none => .error (.unknown name)
    | some t =>
      match t.render model with
      | .ok code => .ok code
      | .error e => .error (.failed name e)
  | _ => .error .noObject

end Template

end ContractGen
