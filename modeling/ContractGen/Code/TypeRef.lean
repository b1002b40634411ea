import ContractGen.Code.Builtin
import ContractGen.Text.Lines

/-!
# References to types

A `TypeRef` is what stands in code where the type of a member, an item or a case is due. Whether a
member may be null is no part of it: `TypeRef.memberText` adds the mark for that.
-/

namespace ContractGen

open Schema (Primitive)

/-! ### Spellings -/

/-- The names of the support types that generated code may declare. -/
def Support.oneOf : String := "OneOf"

/-- The type of a collection. -/
def collectionText (item : String) : String :=
  "System.Collections.Generic.ICollection<" ++ item ++ ">"

/-- Types in a row, as type arguments. -/
def argumentsText (types : List String) : String := String.intercalate ", " types

/-- The type of a value of one of several types. -/
def oneOfText (types : List String) : String := Support.oneOf ++ "<" ++ argumentsText types ++ ">"

/-- A type with the mark for null, where that is written: at a value type always, at any other type
only in code with nullable annotations. -/
def nullableText (name : String) (isValue nullable annotations : Bool) : String :=
  if nullable && (isValue || annotations) then name ++ "?" else name

/-! ### References -/

/-- A reference to a type. -/
inductive TypeRef where
  /-- The type of a scalar. -/
  | builtin (type : Primitive) (format : Option String)
  /-- A declared type; enumerations are value types. -/
  | named (name : String) (isValue : Bool)
  /-- A collection of items. -/
  | collection (item : TypeRef)
  /-- A value of one of several types, declared in place. -/
  | oneOf (cases : List TypeRef)
  /-- The type of every value, where no better one could be given. -/
  | unknown
deriving Repr

namespace TypeRef

/-- Whether the type has no null of its own. -/
def isValue : TypeRef → Bool
  | .builtin type format => (Builtin.ofPrimitive type format).isValue
  | .named _ isValue => isValue
  | .collection _ => false
  | .oneOf _ => false
  | .unknown => false

mutual

/-- The reference in code. -/
def text : TypeRef → String
  | .builtin type format => (Builtin.ofPrimitive type format).name
  | .named name _ => name
  | .collection item => collectionText item.text
  | .oneOf cases => oneOfText (texts cases)
  | .unknown => Builtin.top.name

/-- `text` of each reference. -/
def texts : List TypeRef → List String
  | [] => []
  | t :: rest => t.text :: texts rest

end

/-- The reference in code as the type of a member that may be null. -/
def memberText (t : TypeRef) (nullable annotations : Bool) : String :=
  nullableText t.text t.isValue nullable annotations

end TypeRef

end ContractGen
