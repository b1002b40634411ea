import ContractGen.Code.Layout
import ContractGen.Plan
import ContractGen.Support

/-!
# Generating a file

`generate` turns a graph into a file of code: the contracts of its plan, the support types these
need, and the file around them. Templates are filled by a `Renderer`, whose first failure ends the
generation. A contract is rendered where the walk through the graph declares it, so a failure
before a type without an end comes first.
-/

namespace ContractGen

open Json (Value)
open Schema (Graph)

/-- Why nothing is generated. -/
inductive GenerationError (ε : Type) where
  /-- Arrays and unions without a name contain each other in a circle. -/
  | endlessType
  /-- A template could not be filled. -/
  | template (error : ε)
deriving DecidableEq, Repr

/-- What a graph was turned into. -/
structure GeneratedFile where
  /-- The code of the file. -/
  code : String
  /-- The types in it, in order. -/
  artifacts : List Artifact
  /-- The problems of nodes that were left out. -/
  faults : List Fault
deriving DecidableEq, Repr

namespace GeneratedFile

/-- The type of a name, the first if there are several. -/
def artifact? (f : GeneratedFile) (typeName : String) : Option Artifact :=
  f.artifacts.find? fun a => a.typeName == typeName

/-- Whether nodes were left out. -/
def hasFaults (f : GeneratedFile) : Bool := !f.faults.isEmpty

end GeneratedFile

/-! ### Types -/

/-- The draft of a contract. -/
def Contract.draft (s : Settings) (c : Contract) : Draft :=
  match c.body with
  | .record r => {
      typeName := c.name
      base := r.base
      kind := .record
      template := Template.Name.class
      model := (Model.ofRecord s.nullableAnnotations c.name r).toValue }
  | .enumeration e => {
      typeName := c.name
      kind := .enumeration
      template := Template.Name.enum
      model := (Model.ofEnumeration c.name e).toValue }
  | .union u => {
      typeName := c.name
      base := some (Support.abstractUnionName u.cases.length)
      kind := .record
      template := Template.Name.namedUnion
      model := (Model.ofUnion c.name u).toValue }

namespace Plan

/-- The drafts of the contracts. -/
def contractDrafts (s : Settings) (p : Plan) : List Draft := p.contracts.map (Contract.draft s)

/-- The drafts of the contracts and of what they need. -/
def drafts (s : Settings) (p : Plan) : List Draft :=
  p.contractDrafts s ++ Support.drafts p.features s

end Plan

/-- The faults that are noted before the first contract that cannot be rendered. -/
def notedFaults {ε : Type} (render : Renderer ε) (s : Settings) : List Event → List Fault
  | [] => []
  | .fault f :: rest => f :: notedFaults render s rest
  | .declare c :: rest =>
    match (c.draft s).render render with
    | .ok _ => notedFaults render s rest
    | .error _ => []

/-! ### The file -/

/-- The code of types in a row, without blanks around each and with a blank line between two; a
type without code takes no room. -/
def joinCodes (codes : List String) : String :=
  String.intercalate "\n\n" ((codes.map Text.trimString).filter fun code => !code.isEmpty)

/-- The model of a file with types of some codes. -/
def fileModel (s : Settings) (codes : List String) : Model.File :=
  ⟨s.scope, s.nullableAnnotations, joinCodes codes⟩

/-- The code of a file with types of some codes. -/
def assemble {ε : Type} (render : Renderer ε) (s : Settings) (codes : List String) :
    Except ε String :=
  (render Template.Name.file (fileModel s codes).toValue).map tidy

/-- The file of a plan. -/
def Plan.render {ε : Type} (render : Renderer ε) (s : Settings) (p : Plan) :
    Except ε GeneratedFile := do
  let artifacts ← (p.drafts s).mapM (Draft.render render)
  let code ← assemble render s (artifacts.map Artifact.code)
  return ⟨code, artifacts, p.faults⟩

/-- What comes of a walk that does not get to its end: the contracts on its way are rendered, and
there is no next one. -/
def unfinished {ε : Type} (render : Renderer ε) (s : Settings) (contracts : List Contract) :
    Except (GenerationError ε) GeneratedFile :=
  match contracts.mapM fun c => (c.draft s).render render with
  | .error e => .error (.template e)
  | .ok _ => .error .endlessType

/-- The file of a graph. -/
def generate {ε : Type} (render : Renderer ε) (s : Settings) (g : Graph) :
    Except (GenerationError ε) GeneratedFile :=
  match Plan.ofGraph g s.rootTypeName with
  | none => unfinished render s (Plan.contractsOf g s.rootTypeName)
  | some p => (p.render render s).mapError .template

end ContractGen
