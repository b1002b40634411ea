import ContractGen.Schema.Graph

/-!
# Sound graphs

`Graph.validate` accepts a graph whose pointers all hit a node, whose chains of references end,
and whose chains of base types pass through objects only and end. It reports the first problem in
this order, and among the nodes with the same problem the first of the arena.
-/

namespace ContractGen

namespace Schema

/-- What is wrong with a graph. -/
inductive GraphError where
  /-- The root is no node. -/
  | missingRoot (root : NodeId)
  /-- A node points at no node. -/
  | undefinedReference (node target : NodeId)
  /-- A chain of references never ends. -/
  | referenceCycle (start : NodeId)
  /-- A chain of base types never ends. -/
  | inheritanceCycle (start : NodeId)
  /-- An object inherits from something else than an object. -/
  | invalidBaseType (node base : NodeId)
deriving DecidableEq, Repr

/-- The wording of an error. -/
def GraphError.message : GraphError → String
  | .missingRoot root => "Root node " ++ root.label ++ " does not exist"
  | .undefinedReference node target =>
    "Undefined reference: node " ++ node.label ++ " points at missing node " ++ target.label
  | .referenceCycle start => "Reference cycle starting at node " ++ start.label
  | .inheritanceCycle start => "Inheritance cycle starting at node " ++ start.label
  | .invalidBaseType node base =>
    "Invalid base type: node " ++ node.label ++ " inherits from non-object node " ++ base.label

namespace Graph

/-- The first pointer of a node that hits nothing. -/
def firstDangling? (g : Graph) (id : NodeId) : Option NodeId :=
  (g.node? id).bind fun node => node.kind.children.find? fun child => (g.node? child).isNone

/-- Check that the chain of references from `id` ends. The nodes `seen` are on the chain already;
the first argument bounds the steps, one more than there are nodes. -/
def checkReferences (g : Graph) (start : NodeId) : Nat → List NodeId → NodeId →
    Except GraphError Unit
  | 0, _, _ => .error (.referenceCycle start)
  | steps + 1, seen, id =>
    match g.target? id with
    | none => .ok ()
    | some target =>
      if seen.contains id then .error (.referenceCycle start)
      else g.checkReferences start steps (id :: seen) target

/-- Check that the chain of references from a node ends. -/
def checkReferenceChain (g : Graph) (start : NodeId) : Except GraphError Unit :=
  g.checkReferences start (g.size + 1) [] start

/-- Check that the chain of base types from `id` passes through objects and ends. The nodes `seen`
are on the chain already; the first argument bounds the steps, one more than there are nodes. -/
def checkBases (g : Graph) (start : NodeId) : Nat → List NodeId → NodeId →
    Except GraphError Unit
  | 0, _, _ => .error (.inheritanceCycle start)
  | steps + 1, seen, id =>
    if seen.contains id then .error (.inheritanceCycle start)
    else
      match (g.shape? id).bind (·.base) with
      | none => .ok ()
      | some base =>
        if (g.shape? (g.dereference base)).isSome then
          g.checkBases start steps (id :: seen) (g.dereference base)
        else .error (.invalidBaseType id base)

/-- Check that the chain of base types from an object passes through objects and ends. -/
def checkBaseChain (g : Graph) (start : NodeId) : Except GraphError Unit :=
  g.checkBases start (g.size + 1) [] start

/-- The positions of the nodes. -/
def ids (g : Graph) : List NodeId := List.range g.size

/-- The first problem of a graph, if it has one. -/
def validate (g : Graph) : Except GraphError Unit := do
  if (g.node? g.root).isNone then throw (.missingRoot g.root)
  g.ids.forM fun id =>
    match g.firstDangling? id with
    | some target => throw (.undefinedReference id target)
    | none => pure ()
  g.ids.forM fun id => if (g.target? id).isSome then g.checkReferenceChain id else pure ()
  g.ids.forM fun id =>
    if ((g.shape? id).bind (·.base)).isSome then g.checkBaseChain id else pure ()

end Graph

end Schema

end ContractGen
