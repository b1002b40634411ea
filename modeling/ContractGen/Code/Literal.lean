import ContractGen.Json.Writer

/-!
# String literals

`stringLiteral` writes a text as a string literal of C#: quotes, backslashes and control characters
are escaped, everything else stands for itself.
-/

namespace ContractGen

namespace Literal

/-- Whether a character is one of the two ranges of controls. -/
def isControl (c : Char) : Bool := c.toNat < 0x20 || (0x7f ≤ c.toNat && c.toNat < 0xa0)

/-- How a literal shows `c`. -/
def escapeChar (c : Char) : List Char :=
  match c with
  | '"' => ['\\', '"']
  | '\\' => ['\\', '\\']
  | '\n' => ['\\', 'n']
  | '\r' => ['\\', 'r']
  | '\t' => ['\\', 't']
  | '\x00' => ['\\', '0']
  | c => if isControl c then '\\' :: 'u' :: Json.hex4 c.toNat else [c]

/-- The characters of the literal of a text. -/
def quote (cs : List Char) : List Char := '"' :: cs.flatMap escapeChar ++ ['"']

end Literal

/-- A text as a string literal. -/
def stringLiteral (s : String) : String := String.ofList (Literal.quote s.toList)

end ContractGen
