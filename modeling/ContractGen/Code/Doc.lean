import ContractGen.Text.Blank
import ContractGen.Text.Lines

/-!
# Documentation comments

`docLines` turns a description into the lines of a documentation comment, which is a piece of XML:
the characters that would be markup are written as entities, and blanks at the end of a line are
dropped.
-/

namespace ContractGen

namespace Doc

/-- How a comment shows `c`. -/
def escapeChar (c : Char) : List Char :=
  match c with
  | '&' => "&amp;".toList
  | '<' => "&lt;".toList
  | '>' => "&gt;".toList
  | c => [c]

/-- How a comment shows a line. -/
def escapeLine (cs : List Char) : List Char := (Text.trimEnd cs).flatMap escapeChar

/-- The lines of a comment. -/
def ofText (cs : List Char) : List (List Char) := (Text.lines cs).map escapeLine

end Doc

/-- The lines of the comment for a description; there are none without one. -/
def docLines (text : Option String) : List String :=
  match text with
  | some s => (Doc.ofText s.toList).map String.ofList
  | none => []

end ContractGen
