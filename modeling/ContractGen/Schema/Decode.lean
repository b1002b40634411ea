import ContractGen.Json.Failure
import ContractGen.Schema.Graph

/-!
# Graphs from JSON values

The JSON form of a graph is an object with the fields `root` and `nodes`; a node is an object whose
field `kind` says which other fields it has. Fields with a default may be left out, fields that no
form knows are skipped, and a field that stands twice is refused.

`Graph.ofValue` reads that form. A record other than a node may also be written as the array of its
fields in declaration order. `NodeDraft` collects the fields of a node one by one: its name,
description and annotations as they come, and all the others for the reader of its kind.
-/

namespace ContractGen

namespace Schema

open Json (Value Mismatch)

/-- A conversion from JSON values. -/
abbrev Decoder (α : Type) := Value → Except Mismatch α

namespace Decoder

/-- The position of a node. -/
def nodeId : Decoder NodeId
  | .number (.int n) =>
    if n < 0 then .error (.wrongValue (.number (.int n)) "usize") else .ok n.toNat
  | v => .error (.wrongType v.shape "usize")

/-- A string. -/
def text : Decoder String
  | .string s => .ok s
  | v => .error (.wrongType v.shape "a string")

/-- A truth value. -/
def flag : Decoder Bool
  | .bool b => .ok b
  | v => .error (.wrongType v.shape "a boolean")

/-- Something that may be `null`. -/
def optional {α : Type} (decode : Decoder α) : Decoder (Option α)
  | .null => .ok none
  | v => (decode v).map some

/-- An array of things of one kind. -/
def list {α : Type} (decode : Decoder α) : Decoder (List α)
  | .array items => items.mapM decode
  | v => .error (.wrongType v.shape "a sequence")

/-- A literal, in canonical form. -/
def literal : Decoder Value := fun v => .ok v.canonical

/-- The annotations of a node or property. -/
def extensions : Decoder Extensions
  | .object entries => .ok (Json.sortEntries (Value.canonicalEntries entries))
  | v => .error (.wrongType v.shape "a map")

/-- A field that may stand once: `old` is what was read of it before. -/
def once {α : Type} (field : String) (old : Option α) (decode : Decoder α) (v : Value) :
    Except Mismatch (Option α) :=
  if old.isSome then .error (.duplicateField field) else (decode v).map some

/-- A field that must stand. -/
def need {α : Type} (field : String) : Option α → Except Mismatch α
  | some a => .ok a
  | none => .error (.missingField field)

/-- The field `name` among entries, if it is there. -/
def field? {α : Type} (name : String) (decode : Decoder α) (entries : List (String × Value)) :
    Except Mismatch (Option α) :=
  entries.foldlM (fun old entry => if entry.1 = name then once name old decode entry.2 else .ok old)
    none

end Decoder

/-! ### Records -/

/-- How a record of type `α` is read through drafts of type `σ`. -/
structure Form (σ α : Type) where
  /-- How messages name the record. -/
  title : String
  /-- The fields in declaration order. -/
  fields : List String
  /-- How many of the first fields have no default. -/
  needed : Nat
  /-- What messages say about an array with too many items. -/
  tooLong : String
  /-- The draft before any field is read. -/
  blank : σ
  /-- Read one field. -/
  set : σ → String → Value → Except Mismatch σ
  /-- The record, once all fields are read. -/
  finish : σ → Except Mismatch α

namespace Form

variable {σ α : Type}

/-- Read fields in the order given. -/
def setAll (form : Form σ α) (entries : List (String × Value)) : Except Mismatch σ :=
  entries.foldlM (fun s entry => form.set s entry.1 entry.2) form.blank

/-- The complaint about an array with too few items. -/
def tooShort (form : Form σ α) (length : Nat) : Mismatch :=
  .wrongLength length (form.title ++ s!" with {form.fields.length} elements")

/-- A record, as an object or as the array of its fields. -/
def decode (form : Form σ α) : Decoder α
  | .object entries => do form.finish (← form.setAll entries)
  | .array items => do
    let s ← form.setAll (form.fields.zip items)
    if items.length < form.needed then throw (form.tooShort items.length)
    let a ← form.finish s
    if form.fields.length < items.length then throw (.wrongLength items.length form.tooLong)
    return a
  | v => .error (.wrongType v.shape form.title)

end Form

open Decoder (once need)

/-- The fields of a property that have been read. -/
structure PropertyDraft where
  /-- The field `name`. -/
  name : Option String := none
  /-- The field `schema`. -/
  schema : Option NodeId := none
  /-- The field `required`. -/
  required : Option Bool := none
  /-- The field `nullable`. -/
  nullable : Option Bool := none
  /-- The field `inline`. -/
  isInline : Option Bool := none
  /-- The field `description`. -/
  description : Option (Option String) := none
  /-- The field `extensions`. -/
  extensions : Option Extensions := none

/-- Read one field of a property. -/
def PropertyDraft.set (d : PropertyDraft) (key : String) (v : Value) :
    Except Mismatch PropertyDraft := do
  match key with
  | "name" => return { d with name := ← once key d.name Decoder.text v }
  | "schema" => return { d with schema := ← once key d.schema Decoder.nodeId v }
  | "required" => return { d with required := ← once key d.required Decoder.flag v }
  | "nullable" => return { d with nullable := ← once key d.nullable Decoder.flag v }
  | "inline" => return { d with isInline := ← once key d.isInline Decoder.flag v }
  | "description" =>
    return { d with description := ← once key d.description (Decoder.optional Decoder.text) v }
  | "extensions" => return { d with extensions := ← once key d.extensions Decoder.extensions v }
  | _ => return d

/-- The property, with the defaults of the fields that were left out. -/
def PropertyDraft.finish (d : PropertyDraft) : Except Mismatch Property := do
  let name ← need "name" d.name
  let schema ← need "schema" d.schema
  return {
    name, schema
    required := d.required.getD false
    nullable := d.nullable.getD false
    isInline := d.isInline.getD false
    description := d.description.getD none
    extensions := d.extensions.getD [] }

/-- The form of a property. -/
def Property.form : Form PropertyDraft Property where
  title := "struct PropertyDecl"
  fields := ["name", "schema", "required", "nullable", "inline", "description", "extensions"]
  needed := 2
  tooLong := "7 elements in sequence"
  blank := {}
  set := PropertyDraft.set
  finish := PropertyDraft.finish

/-- The fields of a mapping that have been read. -/
structure MappingDraft where
  /-- The field `value`. -/
  value : Option String := none
  /-- The field `target`. -/
  target : Option NodeId := none

/-- Read one field of a mapping. -/
def MappingDraft.set (d : MappingDraft) (key : String) (v : Value) :
    Except Mismatch MappingDraft := do
  match key with
  | "value" => return { d with value := ← once key d.value Decoder.text v }
  | "target" => return { d with target := ← once key d.target Decoder.nodeId v }
  | _ => return d

/-- The mapping. -/
def MappingDraft.finish (d : MappingDraft) : Except Mismatch Mapping := do
  let value ← need "value" d.value
  let target ← need "target" d.target
  return { value, target }

/-- The form of a mapping. -/
def Mapping.form : Form MappingDraft Mapping where
  title := "struct DiscriminatorMapping"
  fields := ["value", "target"]
  needed := 2
  tooLong := "2 elements in sequence"
  blank := {}
  set := MappingDraft.set
  finish := MappingDraft.finish

/-- The fields of a discriminator that have been read. -/
structure DiscriminatorDraft where
  /-- The field `propertyName`. -/
  propertyName : Option String := none
  /-- The field `mapping`. -/
  mapping : Option (List Mapping) := none

/-- Read one field of a discriminator. -/
def DiscriminatorDraft.set (d : DiscriminatorDraft) (key : String) (v : Value) :
    Except Mismatch DiscriminatorDraft := do
  match key with
  | "propertyName" => return { d with propertyName := ← once key d.propertyName Decoder.text v }
  | "mapping" =>
    return { d with mapping := ← once key d.mapping (Decoder.list Mapping.form.decode) v }
  | _ => return d

/-- The discriminator, with no mapping unless one was read. -/
def DiscriminatorDraft.finish (d : DiscriminatorDraft) : Except Mismatch Discriminator := do
  let propertyName ← need "propertyName" d.propertyName
  return { propertyName, mapping := d.mapping.getD [] }

/-- The form of a discriminator. -/
def Discriminator.form : Form DiscriminatorDraft Discriminator where
  title := "struct Discriminator"
  fields := ["propertyName", "mapping"]
  needed := 1
  tooLong := "2 elements in sequence"
  blank := {}
  set := DiscriminatorDraft.set
  finish := DiscriminatorDraft.finish

/-! ### Kinds -/

/-- The kinds of nodes, without what they hold. -/
inductive KindTag where
  /-- An object with members. -/
  | object
  /-- One of finitely many literals. -/
  | enumeration
  /-- A value of one of several types. -/
  | union
  /-- A built-in scalar. -/
  | primitive
  /-- A list of items of one type. -/
  | array
  /-- Another name of a node. -/
  | reference
deriving DecidableEq, Repr

namespace KindTag

/-- The tags with their names, in declaration order. -/
def named : List (String × KindTag) := [
  ("object", .object), ("enumeration", .enumeration), ("union", .union),
  ("primitive", .primitive), ("array", .array), ("reference", .reference)]

/-- A tag, by its name or by its position. -/
def decode : Decoder KindTag
  | .string s =>
    match named.lookup s with
    | some tag => .ok tag
    | none => .error (.unknownVariant s (named.map (·.1)))
  | .number (.int n) =>
    if n < 0 then .error (.wrongType (.number (.int n)) "variant identifier")
    else
      match named[n.toNat]? with
      | some (_, tag) => .ok tag
      | none => .error (.wrongValue (.number (.int n)) s!"variant index 0 <= i < {named.length}")
  | v => .error (.wrongType v.shape "variant identifier")

end KindTag

namespace Primitive

/-- The built-in scalars with their names. -/
def named : List (String × Primitive) := [
  ("string", .string), ("integer", .integer), ("number", .number), ("boolean", .boolean),
  ("any", .any)]

/-- A built-in scalar by its name. -/
def ofName (name : String) : Except Mismatch Primitive :=
  match named.lookup name with
  | some p => .ok p
  | none => .error (.unknownVariant name (named.map (·.1)))

/-- A built-in scalar: its name, or an object with that name as its only key and nothing in it. -/
def decode : Decoder Primitive
  | .string s => ofName s
  | .object [(key, v)] => do
    let p ← ofName key
    match v with
    | .null => return p
    | .object [] => return p
    | v => throw (.wrongType v.shape "unit")
  | .object _ => .error (.wrongValue .object "map with a single key")
  | v => .error (.wrongType v.shape "string or map")

end Primitive

/-- The fields of an object node that have been read. -/
structure ShapeDraft where
  /-- The field `properties`. -/
  properties : Option (List Property) := none
  /-- The field `base`. -/
  base : Option (Option NodeId) := none
  /-- The field `abstract`. -/
  isAbstract : Option Bool := none
  /-- The field `discriminator`. -/
  discriminator : Option (Option Discriminator) := none

/-- Read one field of an object node. -/
def ShapeDraft.set (d : ShapeDraft) (key : String) (v : Value) : Except Mismatch ShapeDraft := do
  match key with
  | "properties" =>
    return { d with properties := ← once key d.properties (Decoder.list Property.form.decode) v }
  | "base" => return { d with base := ← once key d.base (Decoder.optional Decoder.nodeId) v }
  | "abstract" => return { d with isAbstract := ← once key d.isAbstract Decoder.flag v }
  | "discriminator" =>
    return { d with
      discriminator := ← once key d.discriminator (Decoder.optional Discriminator.form.decode) v }
  | _ => return d

/-- The shape, with the defaults of the fields that were left out. -/
def ShapeDraft.finish (d : ShapeDraft) : Shape where
  properties := d.properties.getD []
  base := d.base.getD none
  isAbstract := d.isAbstract.getD false
  discriminator := d.discriminator.getD none

/-- The fields of a primitive node that have been read. -/
structure PrimitiveDraft where
  /-- The field `type`. -/
  type : Option Primitive := none
  /-- The field `format`. -/
  format : Option (Option String) := none

/-- Read one field of a primitive node. -/
def PrimitiveDraft.set (d : PrimitiveDraft) (key : String) (v : Value) :
    Except Mismatch PrimitiveDraft := do
  match key with
  | "type" => return { d with type := ← once key d.type Primitive.decode v }
  | "format" => return { d with format := ← once key d.format (Decoder.optional Decoder.text) v }
  | _ => return d

/-- The fields of a kind, from the entries of its node. -/
def KindTag.decodeFields (entries : List (String × Value)) : KindTag → Except Mismatch Kind
  | .object => do
    let d ← entries.foldlM (fun d entry => ShapeDraft.set d entry.1 entry.2) {}
    return .object d.finish
  | .enumeration => do
    let values ← Decoder.field? "values" (Decoder.list Decoder.literal) entries
    return .enumeration (values.getD [])
  | .union => do
    let variants ← Decoder.field? "variants" (Decoder.list Decoder.nodeId) entries
    return .union (variants.getD [])
  | .primitive => do
    let d ← entries.foldlM (fun d entry => PrimitiveDraft.set d entry.1 entry.2) {}
    return .primitive (← need "type" d.type) (d.format.getD none)
  | .array => do
    return .array (← need "items" (← Decoder.field? "items" Decoder.nodeId entries))
  | .reference => do
    return .reference (← need "target" (← Decoder.field? "target" Decoder.nodeId entries))

/-- What a node is, from its entries other than name, description and annotations. -/
def Kind.decode (entries : List (String × Value)) : Except Mismatch Kind := do
  let tag ← need "kind" (← Decoder.field? "kind" KindTag.decode entries)
  tag.decodeFields (entries.filter fun entry => entry.1 != "kind")

/-! ### Nodes and graphs -/

/-- The fields of a node that have been read. -/
structure NodeDraft where
  /-- The field `nameHint`. -/
  nameHint : Option (Option String) := none
  /-- The field `description`. -/
  description : Option (Option String) := none
  /-- The field `extensions`. -/
  extensions : Option Extensions := none
  /-- All other fields, in the order of the document. -/
  others : List (String × Value) := []

namespace NodeDraft

/-- Whether a field of the node itself has been read before. -/
def has (d : NodeDraft) (key : String) : Bool :=
  match key with
  | "nameHint" => d.nameHint.isSome
  | "description" => d.description.isSome
  | "extensions" => d.extensions.isSome
  | _ => false

/-- Read one field of a node. -/
def set (d : NodeDraft) (key : String) (v : Value) : Except Mismatch NodeDraft := do
  match key with
  | "nameHint" =>
    return { d with nameHint := ← once key d.nameHint (Decoder.optional Decoder.text) v }
  | "description" =>
    return { d with description := ← once key d.description (Decoder.optional Decoder.text) v }
  | "extensions" => return { d with extensions := ← once key d.extensions Decoder.extensions v }
  | _ => return { d with others := d.others ++ [(key, v)] }

/-- The node: its kind is read last. -/
def finish (d : NodeDraft) : Except Mismatch Node := do
  let kind ← Kind.decode d.others
  return {
    kind
    nameHint := d.nameHint.getD none
    description := d.description.getD none
    extensions := d.extensions.getD [] }

end NodeDraft

/-- How messages name a node. -/
def Node.title : String := "struct SchemaNode"

/-- A node from its JSON form. -/
def Node.ofValue : Decoder Node
  | .object entries => do
    let d ← entries.foldlM (fun d entry => NodeDraft.set d entry.1 entry.2) {}
    d.finish
  | v => .error (.wrongType v.shape Node.title)

/-- The fields of a graph that have been read. -/
structure GraphDraft where
  /-- The field `root`. -/
  root : Option NodeId := none
  /-- The field `nodes`. -/
  nodes : Option (List Node) := none

/-- Read one field of a graph. -/
def GraphDraft.set (d : GraphDraft) (key : String) (v : Value) : Except Mismatch GraphDraft := do
  match key with
  | "root" => return { d with root := ← once key d.root Decoder.nodeId v }
  | "nodes" => return { d with nodes := ← once key d.nodes (Decoder.list Node.ofValue) v }
  | _ => return d

/-- The graph. -/
def GraphDraft.finish (d : GraphDraft) : Except Mismatch Graph := do
  let root ← need "root" d.root
  let nodes ← need "nodes" d.nodes
  return { root, nodes := nodes.toArray }

/-- The form of a graph. -/
def Graph.form : Form GraphDraft Graph where
  title := "struct SchemaGraph"
  fields := ["root", "nodes"]
  needed := 2
  tooLong := "fewer elements in array"
  blank := {}
  set := GraphDraft.set
  finish := GraphDraft.finish

/-- A graph from its JSON form; nothing is said about its soundness. -/
def Graph.ofValue : Decoder Graph := Graph.form.decode

end Schema

end ContractGen
