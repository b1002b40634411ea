import ContractGen.Code.TypeRef

/-!
# Contracts

A `Contract` is a type that generated code declares for a node: a class, an enumeration or a union.
It holds what is declared, free of how that is laid out or quoted.
-/

namespace ContractGen

open Schema (NodeId)

namespace Contract

/-- A member of a class. -/
structure Member where
  /-- Its name in the data. -/
  rawName : String
  /-- Its name in code. -/
  name : String
  /-- Its type. -/
  type : TypeRef
  /-- Whether it must be present. -/
  required : Bool
  /-- Whether it may be null. -/
  nullable : Bool
  /-- The lines of its comment. -/
  doc : List String
  /-- Whether it is a plain date. -/
  isDate : Bool
deriving Repr

namespace Member

/-- Whether the member can be null in code: it may be absent or null in the data. -/
def mayBeNull (m : Member) : Bool := m.nullable || !m.required

end Member

/-- A subtype, and the value that tells it from others. -/
structure Subtype where
  /-- The value of the telling property. -/
  value : String
  /-- The name of the subtype. -/
  typeName : String
deriving DecidableEq, Repr

/-- How the subtypes of a class are told apart. -/
structure Hierarchy where
  /-- The property that tells them apart. -/
  property : String
  /-- The subtypes, in declaration order. -/
  subtypes : List Subtype
deriving DecidableEq, Repr

/-- What a class declares. -/
structure Record where
  /-- The name of the class it inherits from. -/
  base : Option String
  /-- Whether it has no instances of its own. -/
  isAbstract : Bool
  /-- The lines of its comment. -/
  doc : List String
  /-- How its subtypes are told apart. -/
  hierarchy : Option Hierarchy
  /-- Its members, in declaration order. -/
  members : List Member
deriving Repr

/-- A literal of an enumeration. -/
structure Literal where
  /-- Its name in code. -/
  name : String
  /-- Its text in the data. -/
  text : String
  /-- Its number in code. -/
  number : Int
deriving DecidableEq, Repr

/-- What an enumeration declares. -/
structure Enumeration where
  /-- The lines of its comment. -/
  doc : List String
  /-- Whether its literals are texts in the data, rather than numbers. -/
  isText : Bool
  /-- Its literals. -/
  literals : List Literal
deriving DecidableEq, Repr

/-- A case of a union. -/
structure Case where
  /-- The type of its values. -/
  type : TypeRef
  /-- Its name in code. -/
  name : String
deriving Repr

/-- What a union declares. -/
structure Union where
  /-- The lines of its comment. -/
  doc : List String
  /-- Its cases, in declaration order. -/
  cases : List Case
deriving Repr

/-- What a contract declares. -/
inductive Body where
  /-- A class. -/
  | record (r : Record)
  /-- An enumeration. -/
  | enumeration (e : Enumeration)
  /-- A union. -/
  | union (u : Union)
deriving Repr

end Contract

/-- A type that generated code declares. -/
structure Contract where
  /-- The node it is declared for. -/
  node : NodeId
  /-- Its name. -/
  name : String
  /-- What it declares. -/
  body : Contract.Body
deriving Repr

end ContractGen
