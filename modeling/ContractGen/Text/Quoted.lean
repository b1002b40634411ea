import ContractGen.Text.Extending
import ContractGen.Text.Unprintable

/-!
# Texts quoted in messages

A text that a message cites stands in double quotes and shows every character it holds: quotes,
backslashes and the common controls as two-character escapes, marks and characters without a
visible form by their code point in hexadecimal.
-/

namespace ContractGen

namespace Text

/-- The code point of `c`, in hexadecimal between braces. -/
def codePointEscape (c : Char) : List Char :=
  ['\\', 'u', '\x7b'] ++ Nat.toDigits 16 c.toNat ++ ['\x7d']

/-- How a quoted text shows `c`. -/
def quotedChar (c : Char) : List Char :=
  match c with
  | '\x00' => ['\\', '0']
  | '\t' => ['\\', 't']
  | '\r' => ['\\', 'r']
  | '\n' => ['\\', 'n']
  | '"' => ['\\', '"']
  | '\\' => ['\\', '\\']
  | c => if isExtending c || isUnprintable c then codePointEscape c else [c]

/-- The text `s` as a message cites it. -/
def quoted (s : String) : String :=
  String.ofList ('"' :: s.toList.flatMap quotedChar ++ ['"'])

end Text

end ContractGen
