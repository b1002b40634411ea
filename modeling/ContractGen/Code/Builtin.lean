import ContractGen.Schema.Graph

/-!
# Built-in types

How a scalar of a schema is spelled in code. A `Builtin` is the name of a type of the language or
its library, and whether it is a value type: those have no null of their own.
-/

namespace ContractGen

open Schema (Primitive)

/-- A type that needs no declaration. -/
structure Builtin where
  /-- Its name in code. -/
  name : String
  /-- Whether it is a value type. -/
  isValue : Bool
deriving DecidableEq, Repr

namespace Builtin

/-- The type of every value. -/
def top : Builtin := ⟨"object", false⟩

/-- The type of a text, by its format. -/
def ofTextFormat : Option String → Builtin
  | some "date-time" => ⟨"System.DateTimeOffset", true⟩
  | some "date" => ⟨"System.DateTime", true⟩
  | some "time" => ⟨"System.TimeSpan", true⟩
  | some "duration" => ⟨"System.TimeSpan", true⟩
  | some "time-span" => ⟨"System.TimeSpan", true⟩
  | some "uuid" => ⟨"System.Guid", true⟩
  | some "guid" => ⟨"System.Guid", true⟩
  | some "uri" => ⟨"System.Uri", false⟩
  | some "byte" => ⟨"byte[]", false⟩
  | some "binary" => ⟨"byte[]", false⟩
  | _ => ⟨"string", false⟩

/-- The type of a scalar, by its format. A format that the scalar does not know changes nothing. -/
def ofPrimitive (type : Primitive) (format : Option String) : Builtin :=
  match type with
  | .string => ofTextFormat format
  | .integer => if format = some "int64" then ⟨"long", true⟩ else ⟨"int", true⟩
  | .number =>
    if format = some "decimal" then ⟨"decimal", true⟩
    else if format = some "float" then ⟨"float", true⟩
    else ⟨"double", true⟩
  | .boolean => ⟨"bool", true⟩
  | .any => top

end Builtin

/-- Whether a scalar is a plain date, which is written with a format of its own. -/
def isPlainDate (type : Primitive) (format : Option String) : Bool :=
  type == .string && format == some "date"

end ContractGen
