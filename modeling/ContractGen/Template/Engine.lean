import ContractGen.Artifact
import ContractGen.Template.Library
import ContractGen.Template.Parser

/-!
# Template engines

What the text of a template means is left to an engine: the program hands it texts by name and has
it fill the template of a name with a model. `Engine` is all that is asked of one. `Library.engine`
is an engine for templates with values, conditions and loops; the built-in templates have nothing
else in them.
-/

namespace ContractGen

namespace Template

/-- What is asked of the engine that reads and fills templates. -/
structure Engine where
  /-- Templates by name. -/
  Templates : Type
  /-- The built-in templates. -/
  builtin : Templates
  /-- Put the template of a name and a text in place, unless the text is malformed. -/
  add : Templates → String → String → Option Templates
  /-- Fill the template of a name with a model, or say why that cannot be done. -/
  render : Templates → Renderer String

/-- The engine of templates with values, conditions and loops. -/
def Library.engine : Engine where
  Templates := Library
  builtin := Library.builtin
  add library name text := (parse text).map fun t => (name, t) :: library
  render library name model := (library.render name model).mapError Error.message

end Template

end ContractGen
