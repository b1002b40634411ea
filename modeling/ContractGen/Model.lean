import ContractGen.Code.Literal
import ContractGen.Contract
import ContractGen.Json.Value

/-!
# Template models

A model is what a template gets to see of a type: names and texts ready to be put into code. Each
model has a JSON form, `toValue`, whose keys are the names that templates use.
-/

namespace ContractGen

namespace Model

open Json (Value)

/-- The JSON form of texts. -/
def texts (items : List String) : Value := .array (items.map Value.string)

/-- A member of a class. -/
structure Property where
  /-- Its name in the data. -/
  rawName : String
  /-- Its name in code. -/
  name : String
  /-- The name of its class. -/
  owner : String
  /-- Its name in the data, as a literal. -/
  jsonName : String
  /-- Its type. -/
  typeName : String
  /-- Whether it must be present. -/
  required : Bool
  /-- Whether it may be null. -/
  nullable : Bool
  /-- The lines of its comment. -/
  description : List String
  /-- Whether it is a plain date. -/
  dateFormat : Bool
deriving DecidableEq, Repr

/-- The JSON form of a member. -/
def Property.toValue (p : Property) : Value :=
  .object [
    ("raw_name", .string p.rawName), ("name", .string p.name), ("owner", .string p.owner),
    ("json_name", .string p.jsonName), ("type_name", .string p.typeName),
    ("required", .bool p.required), ("nullable", .bool p.nullable),
    ("description", texts p.description), ("date_format", .bool p.dateFormat)]

/-- A subtype of a class. -/
structure Mapping where
  /-- The value that tells it from others, as a literal. -/
  value : String
  /-- Its name. -/
  typeName : String
deriving DecidableEq, Repr

/-- The JSON form of a subtype. -/
def Mapping.toValue (m : Mapping) : Value :=
  .object [("value", .string m.value), ("type_name", .string m.typeName)]

/-- How the subtypes of a class are told apart. -/
structure Discriminator where
  /-- The telling property, as a literal. -/
  propertyName : String
  /-- The subtypes. -/
  mappings : List Mapping
deriving DecidableEq, Repr

/-- The JSON form of a discriminator. -/
def Discriminator.toValue (d : Discriminator) : Value :=
  .object [
    ("property_name", .string d.propertyName),
    ("mappings", .array (d.mappings.map Mapping.toValue))]

/-- A class. -/
structure Class where
  /-- Its name. -/
  typeName : String
  /-- The name of the class it inherits from. -/
  baseName : Option String
  /-- Whether it has no instances of its own. -/
  isAbstract : Bool
  /-- The lines of its comment. -/
  description : List String
  /-- How its subtypes are told apart. -/
  discriminator : Option Discriminator
  /-- Its members. -/
  properties : List Property
deriving DecidableEq, Repr

/-- The JSON form of a class. -/
def Class.toValue (c : Class) : Value :=
  .object [
    ("type_name", .string c.typeName), ("base_name", .ofOption c.baseName),
    ("is_abstract", .bool c.isAbstract), ("description", texts c.description),
    ("discriminator", (c.discriminator.map Discriminator.toValue).getD .null),
    ("properties", .array (c.properties.map Property.toValue))]

/-- A literal of an enumeration. -/
structure EnumMember where
  /-- Its name in code. -/
  name : String
  /-- Its text in the data, as a literal. -/
  value : String
  /-- Its number in code. -/
  number : Int
deriving DecidableEq, Repr

/-- The JSON form of a literal. -/
def EnumMember.toValue (m : EnumMember) : Value :=
  .object [("name", .string m.name), ("value", .string m.value), ("number", .int m.number)]

/-- An enumeration. -/
structure Enum where
  /-- Its name. -/
  typeName : String
  /-- The lines of its comment. -/
  description : List String
  /-- Whether its literals are texts in the data. -/
  isStringEnum : Bool
  /-- Its literals. -/
  members : List EnumMember
deriving DecidableEq, Repr

/-- The JSON form of an enumeration. -/
def Enum.toValue (e : Enum) : Value :=
  .object [
    ("type_name", .string e.typeName), ("description", texts e.description),
    ("is_string_enum", .bool e.isStringEnum),
    ("members", .array (e.members.map EnumMember.toValue))]

/-- A case of a union. -/
structure Variant where
  /-- The type of its values. -/
  typeName : String
  /-- Its name in code. -/
  caseName : String
deriving DecidableEq, Repr

/-- The JSON form of a case. -/
def Variant.toValue (v : Variant) : Value :=
  .object [("type_name", .string v.typeName), ("case_name", .string v.caseName)]

/-- A union that is declared as a type. -/
structure NamedUnion where
  /-- Its name. -/
  typeName : String
  /-- The lines of its comment. -/
  description : List String
  /-- The number of its cases. -/
  arity : Nat
  /-- The types of its cases, as type arguments. -/
  typeArguments : String
  /-- Its cases. -/
  variants : List Variant
deriving DecidableEq, Repr

/-- The JSON form of a union. -/
def NamedUnion.toValue (u : NamedUnion) : Value :=
  .object [
    ("type_name", .string u.typeName), ("description", texts u.description),
    ("arity", .int u.arity), ("type_arguments", .string u.typeArguments),
    ("variants", .array (u.variants.map Variant.toValue))]

/-- A support type for unions of one arity. -/
structure UnionHelper where
  /-- The arity. -/
  arity : Nat
  /-- The names of its type parameters. -/
  parameters : List String
  /-- The same in a row. -/
  typeParameters : String
deriving DecidableEq, Repr

/-- The support type for an arity. -/
def UnionHelper.ofArity (arity : Nat) : UnionHelper :=
  let parameters := (List.range arity).map fun i => s!"T{i}"
  ⟨arity, parameters, argumentsText parameters⟩

/-- The JSON form of a support type. -/
def UnionHelper.toValue (h : UnionHelper) : Value :=
  .object [
    ("arity", .int h.arity), ("parameters", texts h.parameters),
    ("type_parameters", .string h.typeParameters)]

/-- The converter of plain dates. -/
structure DateFormat where
  /-- The format of dates, as a literal. -/
  dateFormat : String
deriving DecidableEq, Repr

/-- The JSON form of the converter of plain dates. -/
def DateFormat.toValue (d : DateFormat) : Value := .object [("date_format", .string d.dateFormat)]

/-- A whole file. -/
structure File where
  /-- The namespace that the types are declared in. -/
  scope : Option String
  /-- Whether the code has nullable annotations. -/
  nullableAnnotations : Bool
  /-- The code of all types. -/
  typesCode : String
deriving DecidableEq, Repr

/-- The JSON form of a file. -/
def File.toValue (f : File) : Value :=
  .object [
    ("namespace", .ofOption f.scope), ("nullable_annotations", .bool f.nullableAnnotations),
    ("types_code", .string f.typesCode)]

/-! ### Models of contracts -/

/-- The model of a member. -/
def ofMember (annotations : Bool) (owner : String) (m : Contract.Member) : Property where
  rawName := m.rawName
  name := m.name
  owner := owner
  jsonName := stringLiteral m.rawName
  typeName := m.type.memberText m.mayBeNull annotations
  required := m.required
  nullable := m.nullable
  description := m.doc
  dateFormat := m.isDate

/-- The model of a hierarchy. -/
def ofHierarchy (h : Contract.Hierarchy) : Discriminator where
  propertyName := stringLiteral h.property
  mappings := h.subtypes.map fun s => ⟨stringLiteral s.value, s.typeName⟩

/-- The model of a class. -/
def ofRecord (annotations : Bool) (typeName : String) (r : Contract.Record) : Class where
  typeName := typeName
  baseName := r.base
  isAbstract := r.isAbstract
  description := r.doc
  discriminator := r.hierarchy.map ofHierarchy
  properties := r.members.map (ofMember annotations typeName)

/-- The model of an enumeration. -/
def ofEnumeration (typeName : String) (e : Contract.Enumeration) : Enum where
  typeName := typeName
  description := e.doc
  isStringEnum := e.isText
  members := e.literals.map fun l => ⟨l.name, stringLiteral l.text, l.number⟩

/-- The model of a union. -/
def ofUnion (typeName : String) (u : Contract.Union) : NamedUnion where
  typeName := typeName
  description := u.doc
  arity := u.cases.length
  typeArguments := argumentsText (u.cases.map fun c => c.type.text)
  variants := u.cases.map fun c => ⟨c.type.text, c.name⟩

end Model

end ContractGen
