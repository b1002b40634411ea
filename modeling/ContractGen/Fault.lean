import ContractGen.Schema.Graph
import ContractGen.Text.Quoted

/-!
# Faults

A fault is a problem of one node that does not stop generation: what depends on the node is left
out or falls back to the type of every value, and the rest is generated all the same.
-/

namespace ContractGen

open Schema (NodeId)

/-- What is wrong with a node. -/
inductive FaultKind where
  /-- Neither the node nor the place that mentions it gives a name. -/
  | unnamed
  /-- The node is a union of nothing. -/
  | emptyUnion
deriving DecidableEq, Repr

/-- The wording of a kind of fault. -/
def FaultKind.message : FaultKind → String
  | .unnamed => "no type name can be derived"
  | .emptyUnion => "union declares no variants"

/-- A problem of one node. -/
structure Fault where
  /-- The node. -/
  node : NodeId
  /-- The name that the place mentioning it suggested. -/
  hint : Option String
  /-- What is wrong. -/
  kind : FaultKind
deriving DecidableEq, Repr

namespace Fault

/-- The wording of a fault. -/
def message (f : Fault) : String :=
  let hint :=
    match f.hint with
    | some hint => " (" ++ Text.quoted hint ++ ")"
    | none => ""
  "node " ++ f.node.label ++ hint ++ ": " ++ f.kind.message

/-- Whether two faults are the same problem, wherever it was met. -/
def isSameProblem (f other : Fault) : Bool := f.node == other.node && f.kind == other.kind

end Fault

end ContractGen
