import ContractGen.Artifact
import ContractGen.Features
import ContractGen.Model
import ContractGen.Resolver
import ContractGen.Settings
import ContractGen.Template.Library

/-!
# Support types

What contracts need besides themselves: support types for the unions of each arity, and the
utilities. A utility can be excluded by name, a support type of unions cannot.
-/

namespace ContractGen

namespace Support

open Json (Value)

/-- The name of the type of unions declared in place, with its number of type parameters. -/
def valueUnionName (arity : Nat) : String := oneOf ++ s!"`{arity}"

/-- The name of the base type of unions, with its number of type parameters. -/
def abstractUnionName (arity : Nat) : String := oneOfBase ++ s!"`{arity}"

/-- The type of unions declared in place. -/
def valueUnion (arity : Nat) : Draft where
  typeName := valueUnionName arity
  base := some (abstractUnionName arity)
  kind := .unionHelper
  template := Template.Name.valueUnion
  model := (Model.UnionHelper.ofArity arity).toValue

/-- The base type of unions. -/
def abstractUnion (arity : Nat) : Draft where
  typeName := abstractUnionName arity
  kind := .unionHelper
  template := Template.Name.abstractUnion
  model := (Model.UnionHelper.ofArity arity).toValue

/-- The support types of unions, by ascending arity. -/
def unionHelpers (f : Features) : List Draft :=
  f.valueUnions.map valueUnion ++ f.abstractUnions.map abstractUnion

/-- A utility; its template has the same name. -/
def utility (name : String) (model : Value) : Draft where
  typeName := name
  kind := .utility
  template := name
  model := model

/-- The utilities that are needed, whether excluded or not. -/
def neededUtilities (f : Features) (hasUnions : Bool) (dateFormat : String) : List Draft :=
  (if f.inheritance then
    [utility inheritanceAttribute (.object []), utility inheritanceConverter (.object [])]
  else []) ++
  (if f.dateFormat then
    [utility dateFormatConverter (Model.DateFormat.mk (stringLiteral dateFormat)).toValue]
  else []) ++
  (if hasUnions then [utility oneOfConverter (.object [])] else [])

/-- The utilities that are generated. -/
def utilities (f : Features) (hasUnions : Bool) (s : Settings) : List Draft :=
  (neededUtilities f hasUnions s.dateFormat).filter fun d => !s.isExcluded d.typeName

/-- All support types. -/
def drafts (f : Features) (s : Settings) : List Draft :=
  let helpers := unionHelpers f
  helpers ++ utilities f (!helpers.isEmpty) s

end Support

end ContractGen
