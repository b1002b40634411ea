import ContractGen.Code.TypeRef
import ContractGen.Fault
import ContractGen.Features
import ContractGen.Identifier
import ContractGen.Identifier.Suffix

/-!
# Naming nodes

A `Resolver` gives names to nodes and renders references to their types. A node keeps the name it
got first, and no two nodes get the same; the names of the support types are never given away.
While it renders references, a resolver records which unions are declared in place, and the faults
of cases that fell back to the type of every value.

`Resolver.typeRef` descends through arrays and through unions that have no name. It gives no answer
if such nodes contain each other in a circle.
-/

namespace ContractGen

open Schema (Graph Node NodeId)

namespace Support

/-- The base type of all unions of one arity. -/
def oneOfBase : String := "OneOfBase"

/-- The converter of unions. -/
def oneOfConverter : String := "OneOfConverter"

/-- The attribute that names a subtype. -/
def inheritanceAttribute : String := "JsonInheritanceAttribute"

/-- The converter of classes whose subtypes are told apart by a property. -/
def inheritanceConverter : String := "JsonInheritanceConverter"

/-- The converter of plain dates. -/
def dateFormatConverter : String := "DateFormatConverter"

/-- The names that no node may get. -/
def reserved : List String := [
  oneOf, oneOfBase, oneOfConverter, inheritanceAttribute, inheritanceConverter,
  dateFormatConverter]

end Support

/-- The names given so far, and what the references rendered so far need. -/
structure Resolver where
  /-- The names of nodes. -/
  names : List (NodeId × String) := []
  /-- All names that are in use. -/
  taken : List String := Support.reserved
  /-- Faults of cases that fell back to the type of every value, in the order they were met. -/
  pending : List Fault := []
  /-- What the references need. -/
  features : Features := {}
deriving Repr

namespace Resolver

/-- The name of a node, if it has one. -/
def nameOf (r : Resolver) (id : NodeId) : Option String := r.names.lookup id

/-- Give a node a name. -/
def assign (r : Resolver) (id : NodeId) (name : String) : Resolver :=
  { r with names := (id, name) :: r.names, taken := name :: r.taken }

/-- The name of a node, made from a hint if it has none yet: the identifier of the hint, with the
smallest number from two on that makes it free if it is taken. There is none if the hint gives no
identifier. -/
def name? (r : Resolver) (id : NodeId) (hint : String) : Option (String × Resolver) :=
  match r.nameOf id with
  | some name => some (name, r)
  | none =>
    (Identifier.typeName? hint).map fun candidate =>
      let name := Identifier.freeName candidate candidate 2 r.taken
      (name, r.assign id name)

/-- The name of the node that `id` stands for. What the node declares goes before the hint. -/
def resolve (r : Resolver) (g : Graph) (id : NodeId) (hint : Option String) :
    Except Fault (String × Resolver) :=
  let target := g.dereference id
  match r.nameOf target with
  | some name => .ok (name, r)
  | none =>
    let declared := (g.node? target).bind Node.declaredName
    match (declared.toList ++ hint.toList).findSome? (r.name? target) with
    | some named => .ok named
    | none => .error ⟨target, hint, .unnamed⟩

/-- A reference to the node that `id` stands for, by its name. -/
def namedRef (r : Resolver) (g : Graph) (id : NodeId) (hint : Option String) (isValue : Bool) :
    Resolver × Except Fault TypeRef :=
  match r.resolve g id hint with
  | .ok (name, r) => (r, .ok (.named name isValue))
  | .error fault => (r, .error fault)

/-- Whether a union is rendered in place: it declares no name and has got none. -/
def isInline (r : Resolver) (id : NodeId) (node : Node) : Bool :=
  node.declaredName.isNone && (r.nameOf id).isNone

/-- The hint for the items of an array. -/
def itemHint (hint : Option String) : Option String := hint.map (· ++ "Item")

/-- The hint for a case of a union, counted from zero. -/
def caseHint (hint : Option String) (index : Nat) : Option String :=
  hint.map (· ++ s!"Case{index + 1}")

/-- A rendered case, or the type of every value and a pending fault. -/
def settleCase (r : Resolver) : Except Fault TypeRef → Resolver × TypeRef
  | .ok t => (r, t)
  | .error fault => ({ r with pending := r.pending ++ [fault] }, .unknown)

/-- References to the cases of a union from the one at `index` on, each by `render`. -/
def caseRefs (render : Resolver → NodeId → Option String →
    Option (Resolver × Except Fault TypeRef)) (hint : Option String) :
    Nat → Resolver → List NodeId → Option (Resolver × List TypeRef)
  | _, r, [] => some (r, [])
  | index, r, variant :: rest => do
    let (r, outcome) ← render r variant (caseHint hint index)
    let (r, t) := r.settleCase outcome
    let (r, ts) ← caseRefs render hint (index + 1) r rest
    return (r, t :: ts)

/-- A reference to the type of the node that `id` stands for, naming what it mentions. The first
number bounds the depth of the descent; there is no answer if that is reached. -/
def descend (g : Graph) : Nat → Resolver → NodeId → Option String →
    Option (Resolver × Except Fault TypeRef)
  | 0, _, _, _ => none
  | depth + 1, r, id, hint =>
    let target := g.dereference id
    match g.node? target with
    | none => some (r, .error ⟨target, hint, .unnamed⟩)
    | some node =>
      match node.kind with
      | .primitive type format => some (r, .ok (.builtin type format))
      | .array items => do
        let (r, item) ← descend g depth r items (itemHint hint)
        return (r, item.map .collection)
      | .union variants =>
        if variants.isEmpty then some (r, .error ⟨target, hint, .emptyUnion⟩)
        else if r.isInline target node then do
          let (r, cases) ← caseRefs (descend g depth) hint 0 r variants
          return ({ r with features := r.features.withInlineUnion variants.length },
            .ok (.oneOf cases))
        else some (r.namedRef g target hint false)
      | .enumeration _ => some (r.namedRef g target hint true)
      | .object _ => some (r.namedRef g target hint false)
      | .reference _ => some (r, .ok .unknown)

/-- A reference to the type of the node that `id` stands for, naming what it mentions. A descent
that ends meets no node twice, so one step more than there are nodes is enough. -/
def typeRef (r : Resolver) (g : Graph) (id : NodeId) (hint : Option String) :
    Option (Resolver × Except Fault TypeRef) :=
  descend g (g.size + 1) r id hint

/-- The pending faults, which are pending no longer. -/
def takeFaults (r : Resolver) : List Fault × Resolver := (r.pending, { r with pending := [] })

end Resolver

end ContractGen
