import ContractGen.Json.Value

/-!
# Artifacts

An artifact is one type of generated code. A `Draft` is an artifact whose code is yet to be
rendered: it says from which template and with which model.
-/

namespace ContractGen

open Json (Value)

/-- What an artifact is. -/
inductive ArtifactKind where
  /-- A class, or a union with a name. -/
  | record
  /-- An enumeration. -/
  | enumeration
  /-- A support type of unions. -/
  | unionHelper
  /-- A converter or attribute. -/
  | utility
deriving DecidableEq, Repr

/-- What an artifact is for. -/
inductive ArtifactCategory where
  /-- It stands for a node of the graph. -/
  | contract
  /-- It is needed by other artifacts. -/
  | utility
deriving DecidableEq, Repr

/-- What artifacts of a kind are for. -/
def ArtifactKind.category : ArtifactKind → ArtifactCategory
  | .record => .contract
  | .enumeration => .contract
  | .unionHelper => .utility
  | .utility => .utility

/-- A type of generated code. -/
structure Artifact where
  /-- Its name. -/
  typeName : String
  /-- The name of the type it inherits from. -/
  base : Option String
  /-- What it is. -/
  kind : ArtifactKind
  /-- Its code. -/
  code : String
deriving DecidableEq, Repr

/-- How templates are filled: by a name and a model. -/
abbrev Renderer (ε : Type) := String → Value → Except ε String

/-- An artifact whose code is yet to be rendered. -/
structure Draft where
  /-- Its name. -/
  typeName : String
  /-- The name of the type it inherits from. -/
  base : Option String := none
  /-- What it is. -/
  kind : ArtifactKind
  /-- The template of its code. -/
  template : String
  /-- The model for the template. -/
  model : Value
deriving Repr

/-- Render the code of a draft. -/
def Draft.render {ε : Type} (render : Renderer ε) (d : Draft) : Except ε Artifact :=
  (render d.template d.model).map fun code => ⟨d.typeName, d.base, d.kind, code⟩

end ContractGen
