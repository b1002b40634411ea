import ContractGen.Json.Writer
import ContractGen.Text.Quoted

/-!
# Why a document cannot be loaded

A document fails for one of two reasons: its text is no JSON (a `Flaw`), or a value in it does not
have the form its place asks for (a `Mismatch`). A `Failure` is such a cause with the place in the
text where it was noticed; a document that never was a text has no places.
-/

namespace ContractGen

namespace Json

/-- A place in a text: the line, from one, and the number of bytes since the last line feed. -/
structure Place where
  /-- The line, from one. -/
  line : Nat
  /-- Bytes since the last line feed. -/
  column : Nat
deriving DecidableEq, Repr

/-- What keeps a text from being JSON. -/
inductive Flaw where
  /-- The text ends where a value is due. -/
  | endInValue
  /-- The text ends within an array. -/
  | endInList
  /-- The text ends within an object. -/
  | endInObject
  /-- The text ends within a string. -/
  | endInString
  /-- Something that starts no value stands where one is due. -/
  | noValue
  /-- A word is none of the three literals. -/
  | noLiteral
  /-- A key is not followed by a colon. -/
  | noColon
  /-- An item of an array is followed by neither comma nor bracket. -/
  | noListEnd
  /-- An entry of an object is followed by neither comma nor brace. -/
  | noObjectEnd
  /-- A key is no string. -/
  | keyNoString
  /-- A comma is followed by the closing bracket or brace. -/
  | trailingComma
  /-- Something follows the document. -/
  | trailingCharacters
  /-- The digits form no number. -/
  | badNumber
  /-- The number is too large for a double. -/
  | numberTooLarge
  /-- A backslash introduces no escape. -/
  | badEscape
  /-- A control character stands in a string. -/
  | controlCharacter
  /-- One half of a surrogate pair stands alone. -/
  | loneSurrogate
  /-- The second half of a surrogate pair is missing. -/
  | halfSurrogate
  /-- Arrays and objects are nested too deeply. -/
  | tooDeep
deriving DecidableEq, Repr

/-- The wording of a flaw. -/
def Flaw.message : Flaw → String
  | .endInValue => "EOF while parsing a value"
  | .endInList => "EOF while parsing a list"
  | .endInObject => "EOF while parsing an object"
  | .endInString => "EOF while parsing a string"
  | .noValue => "expected value"
  | .noLiteral => "expected ident"
  | .noColon => "expected `:`"
  | .noListEnd => "expected `,` or `]`"
  | .noObjectEnd => "expected `,` or `\x7d`"
  | .keyNoString => "key must be a string"
  | .trailingComma => "trailing comma"
  | .trailingCharacters => "trailing characters"
  | .badNumber => "invalid number"
  | .numberTooLarge => "number out of range"
  | .badEscape => "invalid escape"
  | .controlCharacter => "control character (\\u0000-\\u001F) found while parsing a string"
  | .loneSurrogate => "lone leading surrogate in hex escape"
  | .halfSurrogate => "unexpected end of hex escape"
  | .tooDeep => "recursion limit exceeded"

/-- The kind of a value, with the content of a scalar: what a message says was found. -/
inductive Shape where
  /-- The literal `null`. -/
  | null
  /-- A truth value. -/
  | bool (b : Bool)
  /-- A number. -/
  | number (n : Number)
  /-- A string. -/
  | string (s : String)
  /-- An array. -/
  | array
  /-- An object. -/
  | object
deriving DecidableEq, Repr

/-- The kind of a value. -/
def Value.shape : Value → Shape
  | .null => .null
  | .bool b => .bool b
  | .number n => .number n
  | .string s => .string s
  | .array _ => .array
  | .object _ => .object

/-- The wording of what was found. -/
def Shape.message : Shape → String
  | .null => "null"
  | .bool b => s!"boolean `{b}`"
  | .number (.int n) => s!"integer `{n}`"
  | .number (.double d) => "floating point `" ++ d.text ++ "`"
  | .string s => "string " ++ Text.quoted s
  | .array => "sequence"
  | .object => "map"

/-- What keeps a value from having the form its place asks for. -/
inductive Mismatch where
  /-- A field that must be there is not. -/
  | missingField (name : String)
  /-- A field is there twice. -/
  | duplicateField (name : String)
  /-- A word is none of those known at its place. -/
  | unknownVariant (name : String) (known : List String)
  /-- The value is of another kind. -/
  | wrongType (found : Shape) (wanted : String)
  /-- The value is of the right kind, but out of range. -/
  | wrongValue (found : Shape) (wanted : String)
  /-- An array has the wrong number of items. -/
  | wrongLength (length : Nat) (wanted : String)
deriving DecidableEq, Repr

/-- The wording of a mismatch. -/
def Mismatch.message : Mismatch → String
  | .missingField name => "missing field `" ++ name ++ "`"
  | .duplicateField name => "duplicate field `" ++ name ++ "`"
  | .unknownVariant name known =>
    "unknown variant `" ++ name ++ "`, expected one of " ++
      String.intercalate ", " (known.map fun k => "`" ++ k ++ "`")
  | .wrongType found wanted => "invalid type: " ++ found.message ++ ", expected " ++ wanted
  | .wrongValue found wanted => "invalid value: " ++ found.message ++ ", expected " ++ wanted
  | .wrongLength length wanted => s!"invalid length {length}, expected " ++ wanted

/-- Why a document cannot be loaded. -/
inductive Cause where
  /-- The text is no JSON. -/
  | flaw (f : Flaw)
  /-- A value does not have the form its place asks for. -/
  | mismatch (m : Mismatch)
deriving DecidableEq, Repr

/-- The wording of a cause. -/
def Cause.message : Cause → String
  | .flaw f => f.message
  | .mismatch m => m.message

/-- A cause, and where in the text it was noticed. -/
structure Failure where
  /-- The cause. -/
  cause : Cause
  /-- The place in the text, if the document is one. -/
  place : Option Place
deriving DecidableEq, Repr

/-- The wording of a failure, with its place. -/
def Failure.message (f : Failure) : String :=
  match f.place with
  | some p => f.cause.message ++ s!" at line {p.line} column {p.column}"
  | none => f.cause.message

end Json

end ContractGen
