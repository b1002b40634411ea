/-!
# Features

`Features` records what generated contracts need besides themselves. Arities of unions are kept in
ascending order, each once.
-/

namespace ContractGen

/-- Add an arity to an ascending list. -/
def insertArity (n : Nat) : List Nat → List Nat
  | [] => [n]
  | m :: rest =>
    if n < m then n :: m :: rest else if n = m then m :: rest else m :: insertArity n rest

/-- What contracts need besides themselves. -/
structure Features where
  /-- Some class tells its subtypes apart by a property. -/
  inheritance : Bool := false
  /-- Some member is a plain date. -/
  dateFormat : Bool := false
  /-- The arities of unions declared in place. -/
  valueUnions : List Nat := []
  /-- The arities of all unions. -/
  abstractUnions : List Nat := []
deriving DecidableEq, Repr

namespace Features

/-- Record a union declared in place. -/
def withInlineUnion (f : Features) (arity : Nat) : Features :=
  { f with
    valueUnions := insertArity arity f.valueUnions
    abstractUnions := insertArity arity f.abstractUnions }

/-- Record a union that is declared as a type. -/
def withNamedUnion (f : Features) (arity : Nat) : Features :=
  { f with abstractUnions := insertArity arity f.abstractUnions }

end Features

end ContractGen
