import ContractGen.Schema.Decode

/-!
# Graphs as JSON values

`Graph.toValue` is the JSON form of a graph. Optional fields that are absent are left out, and so
are annotations if there are none; every other field is always written. The names of kinds and
scalars are those that reading knows.
-/

namespace ContractGen

namespace Schema

open Json (Value)

/-- The JSON form of a pointer. -/
def NodeId.toValue (id : NodeId) : Value := Value.int id

/-- An optional field with a text. -/
def textField (key : String) (text : Option String) : List (String × Value) :=
  text.toList.map fun s => (key, .string s)

/-- The field of annotations, unless there are none. -/
def Extensions.field (extensions : Extensions) : List (String × Value) :=
  if extensions.isEmpty then [] else [("extensions", .object extensions)]

/-- The JSON form of a property. -/
def Property.toValue (p : Property) : Value :=
  .object ([
    ("name", .string p.name), ("schema", p.schema.toValue), ("required", .bool p.required),
    ("nullable", .bool p.nullable), ("inline", .bool p.isInline)] ++
    textField "description" p.description ++ Extensions.field p.extensions)

/-- The JSON form of a mapping. -/
def Mapping.toValue (m : Mapping) : Value :=
  .object [("value", .string m.value), ("target", m.target.toValue)]

/-- The JSON form of a discriminator. -/
def Discriminator.toValue (d : Discriminator) : Value :=
  .object [
    ("propertyName", .string d.propertyName),
    ("mapping", .array (d.mapping.map Mapping.toValue))]

/-- The name of a built-in scalar. -/
def Primitive.name : Primitive → String
  | .string => "string"
  | .integer => "integer"
  | .number => "number"
  | .boolean => "boolean"
  | .any => "any"

/-- The fields of an object node. -/
def Shape.fields (shape : Shape) : List (String × Value) :=
  [("properties", .array (shape.properties.map Property.toValue))] ++
    shape.base.toList.map (fun base => ("base", NodeId.toValue base)) ++
    [("abstract", .bool shape.isAbstract)] ++
    shape.discriminator.toList.map (fun d => ("discriminator", d.toValue))

/-- The fields of a kind, its name first. -/
def Kind.fields : Kind → List (String × Value)
  | .object shape => ("kind", .string "object") :: shape.fields
  | .enumeration values => [("kind", .string "enumeration"), ("values", .array values)]
  | .union variants =>
    [("kind", .string "union"), ("variants", .array (variants.map NodeId.toValue))]
  | .primitive type format =>
    [("kind", .string "primitive"), ("type", .string type.name)] ++ textField "format" format
  | .array items => [("kind", .string "array"), ("items", items.toValue)]
  | .reference target => [("kind", .string "reference"), ("target", target.toValue)]

/-- The JSON form of a node. -/
def Node.toValue (node : Node) : Value :=
  .object (textField "nameHint" node.nameHint ++ textField "description" node.description ++
    Extensions.field node.extensions ++ node.kind.fields)

/-- The JSON form of a graph. -/
def Graph.toValue (g : Graph) : Value :=
  .object [("root", g.root.toValue), ("nodes", .array (g.nodes.toList.map Node.toValue))]

end Schema

end ContractGen
