import ContractGen.Json.Value
import ContractGen.Text.Blank

/-!
# Schema graphs

A schema graph is an arena of nodes, one of which is the root. Nodes point at each other by their
position in the arena. Nothing keeps such a pointer from missing the arena, or a chain of pointers
from running in a circle: `ContractGen.Schema.Validity` says which graphs are sound, and the
functions here are total on every graph.

`Graph.dereference` follows `reference` nodes to the node they stand for.
-/

namespace ContractGen

namespace Schema

/-- The position of a node in its graph. -/
abbrev NodeId := Nat

/-- A node as messages name it. -/
def NodeId.label (id : NodeId) : String := s!"#{id}"

/-- Free annotations of nodes and properties, in ascending order of keys. -/
abbrev Extensions := List (String × Json.Value)

/-- The text of an annotation, if it is one. -/
def Extensions.text? (extensions : Extensions) (key : String) : Option String :=
  (extensions.lookup key).bind Json.Value.string?

/-- The annotation that gives a property its member name. -/
def memberNameKey : String := "name"

/-- The annotation that gives a node its type name. -/
def typeNameKey : String := "typeName"

/-- A text without blanks around it, unless nothing is left. -/
def trimmed? (text : Option String) : Option String :=
  (text.map Text.trimString).filter fun s => !s.isEmpty

/-- The built-in scalar types. -/
inductive Primitive where
  /-- Text, possibly of a particular format. -/
  | string
  /-- A whole number. -/
  | integer
  /-- Any number. -/
  | number
  /-- A truth value. -/
  | boolean
  /-- A value of any type. -/
  | any
deriving DecidableEq, Repr

/-- A declared member of an object. -/
structure Property where
  /-- The name in the data. -/
  name : String
  /-- The node of its type. -/
  schema : NodeId
  /-- Whether the member must be present. -/
  required : Bool
  /-- Whether the member may be null. -/
  nullable : Bool
  /-- Whether its type was declared in place rather than shared. -/
  isInline : Bool
  /-- Its description. -/
  description : Option String
  /-- Its annotations. -/
  extensions : Extensions
deriving Repr

namespace Property

/-- The member name that an annotation gives, if any. -/
def explicitName (p : Property) : Option String := p.extensions.text? memberNameKey

/-- The description without blanks around it. -/
def summary (p : Property) : Option String := trimmed? p.description

end Property

/-- Which subtype a value of the discriminator stands for. -/
structure Mapping where
  /-- The value of the discriminator. -/
  value : String
  /-- The node of the subtype. -/
  target : NodeId
deriving DecidableEq, Repr

/-- The property that tells the subtypes of an object apart. -/
structure Discriminator where
  /-- The name of the property. -/
  propertyName : String
  /-- Its values, in declaration order. -/
  mapping : List Mapping
deriving DecidableEq, Repr

/-- What an object declares. -/
structure Shape where
  /-- The members, in declaration order. -/
  properties : List Property
  /-- The node it inherits from. -/
  base : Option NodeId
  /-- Whether it has no instances of its own. -/
  isAbstract : Bool
  /-- The property that tells its subtypes apart. -/
  discriminator : Option Discriminator
deriving Repr

/-- What a node is. -/
inductive Kind where
  /-- An object with members. -/
  | object (shape : Shape)
  /-- One of finitely many literals. -/
  | enumeration (values : List Json.Value)
  /-- A value of one of several types. -/
  | union (variants : List NodeId)
  /-- A built-in scalar, possibly of a particular format. -/
  | primitive (type : Primitive) (format : Option String)
  /-- A list of items of one type. -/
  | array (items : NodeId)
  /-- Another name of a node. -/
  | reference (target : NodeId)
deriving Repr

/-- The nodes that a node points at, in declaration order: base, properties and mapping targets of
an object, variants, items or target of the others. -/
def Kind.children : Kind → List NodeId
  | .object shape =>
    shape.base.toList ++ shape.properties.map (·.schema) ++
      (shape.discriminator.map fun d => d.mapping.map (·.target)).getD []
  | .union variants => variants
  | .array items => [items]
  | .reference target => [target]
  | .enumeration _ => []
  | .primitive _ _ => []

/-- A node of a schema graph. -/
structure Node where
  /-- What the node is. -/
  kind : Kind
  /-- The name it suggests for itself. -/
  nameHint : Option String
  /-- Its description. -/
  description : Option String
  /-- Its annotations. -/
  extensions : Extensions
deriving Repr

namespace Node

/-- A node without name, description and annotations. -/
def ofKind (kind : Kind) : Node := ⟨kind, none, none, []⟩

/-- The name a node declares for itself: its type name annotation, or else its name hint. A blank
one counts as none. -/
def declaredName (node : Node) : Option String :=
  ((node.extensions.text? typeNameKey).or node.nameHint).filter fun name => !Text.isBlankText name

/-- The description without blanks around it. -/
def summary (node : Node) : Option String := trimmed? node.description

/-- What the node declares, if it is an object. -/
def shape? (node : Node) : Option Shape :=
  match node.kind with
  | .object shape => some shape
  | _ => none

end Node

/-- An arena of nodes and its root. -/
structure Graph where
  /-- The root node. -/
  root : NodeId
  /-- The nodes. -/
  nodes : Array Node
deriving Repr

namespace Graph

/-- The graph without nodes. -/
def empty : Graph := ⟨0, #[]⟩

/-- The number of nodes. -/
def size (g : Graph) : Nat := g.nodes.size

/-- The node at a position. -/
def node? (g : Graph) (id : NodeId) : Option Node := g.nodes[id]?

/-- The graph with one more node, and the position of that. -/
def add (g : Graph) (node : Node) : NodeId × Graph :=
  (g.size, { g with nodes := g.nodes.push node })

/-- The target of a node that is a reference. -/
def target? (g : Graph) (id : NodeId) : Option NodeId :=
  match (g.node? id).map Node.kind with
  | some (.reference target) => some target
  | _ => none

/-- Follow at most `steps` references. -/
def follow (g : Graph) : Nat → NodeId → NodeId
  | 0, id => id
  | steps + 1, id =>
    match g.target? id with
    | some target => g.follow steps target
    | none => id

/-- Follow references to the node they stand for. One step more than there are nodes is enough for
every chain that ends. -/
def dereference (g : Graph) (id : NodeId) : NodeId := g.follow (g.size + 1) id

/-- What the node at a position declares, if it is an object. -/
def shape? (g : Graph) (id : NodeId) : Option Shape := (g.node? id).bind Node.shape?

end Graph

end Schema

end ContractGen
