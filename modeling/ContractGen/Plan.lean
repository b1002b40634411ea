import ContractGen.Code.Doc
import ContractGen.Contract.Literals
import ContractGen.Contract.Members
import ContractGen.Resolver

/-!
# Planning contracts

A plan says which contracts a graph needs, in which order, and which faults stand in the way. It is
made by a walk from the root: a node is visited once, what it points at is visited right after it,
and a contract is declared where its node is visited. Objects, enumerations and unions with a name
get a contract; arrays and unions without a name are passed through.

`Plan.ofGraph` has no answer only for graphs in which arrays and unions without a name contain each
other in a circle.
-/

namespace ContractGen

open Schema (Graph Node NodeId Kind)
open Contract (Member Subtype Hierarchy Record Enumeration Case Union)

/-- What happens on a walk. -/
inductive Event where
  /-- A fault is met for the first time. -/
  | fault (f : Fault)
  /-- A contract is declared. -/
  | declare (c : Contract)
deriving Repr

/-- A node that is still to be visited. -/
structure Task where
  /-- The node, or a reference to it. -/
  node : NodeId
  /-- The name that the place mentioning it suggests. -/
  hint : Option String
  /-- Whether the walk starts here. -/
  isRoot : Bool := false
deriving DecidableEq, Repr

/-- The state of a walk. -/
structure Walk where
  /-- The names given so far. -/
  resolver : Resolver := {}
  /-- The nodes visited so far. -/
  visited : List NodeId := []
  /-- What happened so far, in order. -/
  events : List Event := []
deriving Repr

namespace Walk

/-! ### Faults -/

/-- The fault of an event. -/
def faultOf? : Event → Option Fault
  | .fault f => some f
  | .declare _ => none

/-- The contract of an event. -/
def contractOf? : Event → Option Contract
  | .fault _ => none
  | .declare c => some c

/-- The faults met so far. -/
def faults (w : Walk) : List Fault := w.events.filterMap faultOf?

/-- Note a fault, unless the same problem is noted already. -/
def report (w : Walk) (f : Fault) : Walk :=
  if w.faults.any f.isSameProblem then w else { w with events := w.events ++ [.fault f] }

/-- Note several faults. -/
def reportAll (w : Walk) (fs : List Fault) : Walk := fs.foldl report w

/-- Declare a contract. -/
def declare (w : Walk) (c : Contract) : Walk := { w with events := w.events ++ [.declare c] }

/-! ### Names and types -/

/-- The name of a node, or a fault. -/
def name? (w : Walk) (g : Graph) (id : NodeId) (hint : Option String) : Walk × Option String :=
  match w.resolver.resolve g id hint with
  | .ok (name, resolver) => ({ w with resolver }, some name)
  | .error fault => (w.report fault, none)

/-- The type of a member or case, or `none` with a fault. All faults met are noted. -/
def typeRef (w : Walk) (g : Graph) (id : NodeId) (hint : String) :
    Option (Walk × Option TypeRef) := do
  let (resolver, outcome) ← w.resolver.typeRef g id (some hint)
  let (pending, resolver) := resolver.takeFaults
  let w := { w with resolver }.reportAll pending
  match outcome with
  | .ok t => return (w, some t)
  | .error fault => return (w.report fault, none)

/-! ### Classes -/

/-- The telling property of the first object with one among `id` and its bases, at most `steps`
objects far. -/
def tellingProperty (g : Graph) : Nat → NodeId → Option String
  | 0, _ => none
  | steps + 1, id =>
    match g.shape? id with
    | none => none
    | some shape =>
      match shape.discriminator with
      | some d => some d.propertyName
      | none => shape.base.bind fun base => tellingProperty g steps (g.dereference base)

/-- The property that tells the subtypes of an object apart, its own or an inherited one. -/
def inheritedProperty (g : Graph) (id : NodeId) : Option String :=
  tellingProperty g g.size (g.dereference id)

/-- Whether a node is a plain date. -/
def isDateNode : Kind → Bool
  | .primitive type format => isPlainDate type format
  | _ => false

/-- The description of a property: its own, or that of its type if that is declared in place. -/
def propertySummary (p : Schema.Property) (node : Option Node) : Option String :=
  p.summary.or (if p.isInline then node.bind Node.summary else none)

/-- The member of a property, with its type to be visited unless that has a fault. -/
def member (w : Walk) (g : Graph) (p : Schema.Property) :
    Option (Walk × Member × List Task) := do
  let (w, type) ← w.typeRef g p.schema p.name
  let node := g.node? (g.dereference p.schema)
  let isDate := (node.map fun n => isDateNode n.kind).getD false
  let features :=
    { w.resolver.features with dateFormat := w.resolver.features.dateFormat || isDate }
  let w := { w with resolver := { w.resolver with features } }
  let m : Member := {
    rawName := p.name
    name := Identifier.memberName p.name p.explicitName
    type := type.getD .unknown
    required := p.required
    nullable := p.nullable
    doc := docLines (propertySummary p node)
    isDate }
  return (w, m, if type.isSome then [⟨p.schema, some p.name, false⟩] else [])

/-- The members of properties, with what is to be visited for them. -/
def members (w : Walk) (g : Graph) : List Schema.Property →
    Option (Walk × List Member × List Task)
  | [] => some (w, [], [])
  | p :: rest => do
    let (w, m, ts) ← w.member g p
    let (w, ms, more) ← w.members g rest
    return (w, m :: ms, ts ++ more)

/-- The base class of a class, with the node to be visited for it. -/
def base (w : Walk) (g : Graph) (typeName : String) (base : Option NodeId) :
    Walk × Option String × List Task :=
  match base with
  | none => (w, none, [])
  | some id =>
    let hint := typeName ++ "Base"
    match w.name? g id (some hint) with
    | (w, some name) => (w, some name, [⟨id, some hint, false⟩])
    | (w, none) => (w, none, [])

/-- The subtypes of a class, with the nodes to be visited for them. One with a fault is left out. -/
def subtypes (w : Walk) (g : Graph) : List Schema.Mapping → Walk × List Subtype × List Task
  | [] => (w, [], [])
  | m :: rest =>
    match w.name? g m.target (some m.value) with
    | (w, some name) =>
      let (w, subs, ts) := w.subtypes g rest
      (w, ⟨m.value, name⟩ :: subs, ⟨m.target, some m.value, false⟩ :: ts)
    | (w, none) => w.subtypes g rest

/-- How the subtypes of a class are told apart, with the nodes to be visited for them. -/
def hierarchy (w : Walk) (g : Graph) (discriminator : Option Schema.Discriminator) :
    Walk × Option Hierarchy × List Task :=
  match discriminator with
  | none => (w, none, [])
  | some d =>
    let features := { w.resolver.features with inheritance := true }
    let w := { w with resolver := { w.resolver with features } }
    let (w, subs, ts) := w.subtypes g d.mapping
    (w, some ⟨d.propertyName, subs⟩, ts)

/-- Declare the class of an object. The property that tells subtypes apart is no member. -/
def declareRecord (w : Walk) (g : Graph) (id : NodeId) (node : Node) (shape : Schema.Shape)
    (typeName : String) : Option (Walk × List Task) := do
  let (w, base, baseTasks) := w.base g typeName shape.base
  let hidden := inheritedProperty g id
  let shown := shape.properties.filter fun p => hidden != some p.name
  let (w, members, memberTasks) ← w.members g shown
  let (w, hierarchy, subtypeTasks) := w.hierarchy g shape.discriminator
  let record : Record := {
    base
    isAbstract := shape.isAbstract
    doc := docLines node.summary
    hierarchy
    members := Contract.distinctMembers typeName members }
  return (w.declare ⟨id, typeName, .record record⟩, baseTasks ++ memberTasks ++ subtypeTasks)

/-! ### Unions -/

/-- The nodes whose description belongs to the properties that declare them in place. -/
def inlineNodes (g : Graph) : List NodeId :=
  g.nodes.toList.flatMap fun node =>
    match node.shape? with
    | some shape => (shape.properties.filter (·.isInline)).map fun p => g.dereference p.schema
    | none => []

/-- The name that a case suggests: the one its type declares, or one by its position. -/
def caseHint (g : Graph) (typeName : String) (variant : NodeId) (index : Nat) : String :=
  ((g.node? (g.dereference variant)).bind Node.declaredName).getD s!"{typeName}Case{index + 1}"

/-- The cases of a union from the one at `index` on, with what is to be visited for them; the
names `used` are taken. -/
def cases (g : Graph) (typeName : String) (w : Walk) (used : List String) (index : Nat) :
    List NodeId → Option (Walk × List Case × List Task)
  | [] => some (w, [], [])
  | variant :: rest => do
    let hint := caseHint g typeName variant index
    let (w, type) ← w.typeRef g variant hint
    let plain := Identifier.memberName hint none
    let name := Identifier.freeName plain plain 2 used
    let ts : List Task := if type.isSome then [⟨variant, some hint, false⟩] else []
    let (w, more, moreTasks) ← cases g typeName w (name :: used) (index + 1) rest
    return (w, ⟨type.getD .unknown, name⟩ :: more, ts ++ moreTasks)

/-- Declare a union with a name. -/
def declareUnion (w : Walk) (g : Graph) (id : NodeId) (node : Node) (variants : List NodeId)
    (typeName : String) : Option (Walk × List Task) := do
  let (w, cases, tasks) ← cases g typeName w [] 0 variants
  let features := w.resolver.features.withNamedUnion variants.length
  let w := { w with resolver := { w.resolver with features } }
  let doc := if (inlineNodes g).contains id then [] else docLines node.summary
  return (w.declare ⟨id, typeName, .union ⟨doc, cases⟩⟩, tasks)

/-! ### The walk -/

/-- Declare the contract of a node, once that has a name. -/
def declareNamed (w : Walk) (g : Graph) (id : NodeId) (hint : Option String)
    (body : Walk → String → Option (Walk × List Task)) : Option (Walk × List Task) :=
  match w.name? g id hint with
  | (w, some name) => body w name
  | (w, none) => some (w, [])

/-- Whether a union gets a contract of its own. -/
def isNamedUnion (w : Walk) (id : NodeId) (node : Node) (isRoot : Bool) : Bool :=
  isRoot || node.declaredName.isSome || (w.resolver.nameOf id).isSome

/-- Visit a node for the first time; the result has what it points at. -/
def enter (w : Walk) (g : Graph) (id : NodeId) (node : Node) (hint : Option String)
    (isRoot : Bool) : Option (Walk × List Task) :=
  match node.kind with
  | .enumeration values =>
    w.declareNamed g id hint fun w name =>
      let e := Enumeration.ofValues name (docLines node.summary) values
      some (w.declare ⟨id, name, .enumeration e⟩, [])
  | .union variants =>
    if variants.isEmpty then some (w.report ⟨id, hint, .emptyUnion⟩, [])
    else if w.isNamedUnion id node isRoot then
      w.declareNamed g id hint fun w name => w.declareUnion g id node variants name
    else
      some (w, variants.mapIdx fun index variant =>
        ⟨variant, Resolver.caseHint hint index, false⟩)
  | .object shape =>
    w.declareNamed g id hint fun w name => w.declareRecord g id node shape name
  | .array items => some (w, [⟨items, Resolver.itemHint hint, false⟩])
  | .primitive _ _ => some (w, [])
  | .reference _ => some (w, [])

/-- Visit a node, unless it was visited before. -/
def visit (w : Walk) (g : Graph) (task : Task) : Option (Walk × List Task) :=
  let id := g.dereference task.node
  if w.visited.contains id then some (w, [])
  else
    let w := { w with visited := id :: w.visited }
    match g.node? id with
    | none => some (w, [])
    | some node => w.enter g id node task.hint task.isRoot

/-- Visit nodes and what they point at, depth first, up to a visit that has no result. The number
bounds the visits. The tasks that are left stand beside the state. -/
def proceed (g : Graph) : Nat → Walk → List Task → Walk × List Task
  | _, w, [] => (w, [])
  | 0, w, task :: rest => (w, task :: rest)
  | steps + 1, w, task :: rest =>
    match w.visit g task with
    | none => (w, task :: rest)
    | some (w, more) => proceed g steps w (more ++ rest)

/-- The state in which no task is left, if it is come to. -/
def run (g : Graph) (steps : Nat) (w : Walk) (tasks : List Task) : Option Walk :=
  match proceed g steps w tasks with
  | (w, []) => some w
  | (_, _ :: _) => none

/-- A number of visits that is enough: the root, and every pointer of every node. -/
def visitBound (g : Graph) : Nat :=
  1 + (g.nodes.toList.flatMap fun node => node.kind.children).length

end Walk

/-- The contracts that a graph needs, the faults in the way, and what the contracts need. -/
structure Plan where
  /-- Contracts and faults, in the order of the walk. -/
  events : List Event
  /-- What the contracts need besides themselves. -/
  features : Features
deriving Repr

namespace Plan

/-- The contracts, in order. -/
def contracts (p : Plan) : List Contract := p.events.filterMap Walk.contractOf?

/-- The faults, in order. -/
def faults (p : Plan) : List Fault := p.events.filterMap Walk.faultOf?

/-- The plan for a graph; `rootName` suggests a name for the root. -/
def ofGraph (g : Graph) (rootName : Option String) : Option Plan := do
  let w ← Walk.run g (Walk.visitBound g) {} [⟨g.root, rootName, true⟩]
  return ⟨w.events, w.resolver.features⟩

/-- What happens on the walk through a graph, also if there is no plan for it: then up to the node
whose types have no end. -/
def eventsOf (g : Graph) (rootName : Option String) : List Event :=
  (Walk.proceed g (Walk.visitBound g) {} [⟨g.root, rootName, true⟩]).1.events

/-- The contracts that are declared on the walk through a graph. -/
def contractsOf (g : Graph) (rootName : Option String) : List Contract :=
  (eventsOf g rootName).filterMap Walk.contractOf?

end Plan

end ContractGen
