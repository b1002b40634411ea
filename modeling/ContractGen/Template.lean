import ContractGen.Json.Value

/-!
# Templates

A template is a list of blocks: text, values to be filled in, conditions and loops. Values come
from a model, a JSON object, by their path in it.
-/

namespace ContractGen

namespace Template

/-- A dotted name: the keys and indices that lead to a value. -/
abbrev Path := List String

/-- The dotted name. -/
def Path.text (path : Path) : String := String.intercalate "." path

/-- A part of a template. -/
inductive Block where
  /-- Text that is written as it is. -/
  | text (s : String)
  /-- A value to be filled in. -/
  | value (path : Path)
  /-- One of two parts, by whether there is a value and it counts as true. -/
  | cond (path : Path) (present absent : List Block)
  /-- A part for each item of a value; `item` names the item within it. -/
  | loop (item : String) (path : Path) (body : List Block)
deriving Repr

/-- Lines of text, each closed by a line feed. -/
def codeLines (lines : List String) : String := String.join (lines.map fun line => line ++ "\n")

end Template

/-- A template. -/
abbrev Template := List Template.Block

end ContractGen
