import ContractGen.Json.Shortest
import ContractGen.Json.Value

/-!
# JSON text

`Value.text` writes a value without any blank. Integers are written in full. A double has the
shortest digits that read back, placed by a `Layout`: positional within a range of magnitudes, and
with an exponent outside it.
-/

namespace ContractGen

namespace Json

/-- How the digits of a double are placed. -/
structure Layout where
  /-- The magnitudes (powers of ten of the first digit) that are written without an exponent. -/
  isPlain : Int → Bool
  /-- What follows a whole number written without an exponent. -/
  wholeEnd : List Char

namespace Layout

/-- The digits of `d` in positional notation. -/
def plain (layout : Layout) (d : Decimal) : List Char :=
  if 0 ≤ d.exponent then d.text ++ List.replicate d.exponent.toNat '0' ++ layout.wholeEnd
  else if 0 ≤ d.magnitude then
    let whole := d.magnitude.toNat + 1
    d.text.take whole ++ '.' :: d.text.drop whole
  else ['0', '.'] ++ List.replicate (-d.magnitude - 1).toNat '0' ++ d.text

/-- The digits of `d` with the first one before the point and an exponent with a sign. -/
def scientific (d : Decimal) : List Char :=
  let head := match d.text with
    | [] => []
    | [c] => [c]
    | c :: rest => c :: '.' :: rest
  let sign := if d.magnitude < 0 then '-' else '+'
  head ++ 'e' :: sign :: Nat.toDigits 10 d.magnitude.natAbs

/-- The text of a double. -/
def write (layout : Layout) (x : Double) : List Char :=
  let d := x.shortest
  let digits := if layout.isPlain d.magnitude then layout.plain d else scientific d
  if x.negative then '-' :: digits else digits

end Layout

/-- In JSON text a double is positional from `1e-5` to below `1e16`, and a whole one ends in
`.0`. -/
def doubleLayout : Layout := ⟨fun magnitude => -5 ≤ magnitude && magnitude < 16, ['.', '0']⟩

/-- The text of a double in JSON. -/
def Double.text (d : Double) : String := String.ofList (doubleLayout.write d)

/-- The text of a number. -/
def Number.text : Number → String
  | .int n => toString n
  | .double d => d.text

/-- Four hexadecimal digits of a code. -/
def hex4 (n : Nat) : List Char :=
  let digits := Nat.toDigits 16 n
  List.replicate (4 - digits.length) '0' ++ digits

/-- How a string shows `c`: quotes, backslashes and controls are escaped. -/
def escapeChar (c : Char) : List Char :=
  match c with
  | '"' => ['\\', '"']
  | '\\' => ['\\', '\\']
  | '\x08' => ['\\', 'b']
  | '\x0c' => ['\\', 'f']
  | '\n' => ['\\', 'n']
  | '\r' => ['\\', 'r']
  | '\t' => ['\\', 't']
  | c => if c.toNat < 0x20 then ['\\', 'u'] ++ hex4 c.toNat else [c]

/-- The text of a string, with its quotes. -/
def stringText (s : String) : String :=
  String.ofList ('"' :: s.toList.flatMap escapeChar ++ ['"'])

mutual

/-- The text of a value. -/
def Value.text : Value → String
  | .null => "null"
  | .bool b => if b then "true" else "false"
  | .number n => n.text
  | .string s => stringText s
  | .array items => "[" ++ String.intercalate "," (itemTexts items) ++ "]"
  | .object entries => "\x7b" ++ String.intercalate "," (entryTexts entries) ++ "\x7d"

/-- The texts of the items of an array. -/
def itemTexts : List Value → List String
  | [] => []
  | v :: rest => v.text :: itemTexts rest

/-- The texts of the entries of an object. -/
def entryTexts : List (String × Value) → List String
  | [] => []
  | (key, v) :: rest => (stringText key ++ ":" ++ v.text) :: entryTexts rest

end

end Json

end ContractGen
