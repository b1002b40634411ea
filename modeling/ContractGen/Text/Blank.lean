import ContractGen.Text.Range

/-!
# Blank characters and trimming

A blank is a character of the `White_Space` property of Unicode 17. `trimStart`, `trimEnd` and
`trim` remove the blanks at one or both ends of a text; `isBlankText` says that nothing is left.
-/

namespace ContractGen

namespace Text

/-- The ranges of the `White_Space` property. -/
def blankRanges : Ranges := [
  (0x9, 0xd), (0x20, 0x20), (0x85, 0x85), (0xa0, 0xa0), (0x1680, 0x1680), (0x2000, 0x200a),
  (0x2028, 0x2029), (0x202f, 0x202f), (0x205f, 0x205f), (0x3000, 0x3000)]

/-- Whether `c` is white space. -/
def isBlank (c : Char) : Bool := blankRanges.has c.toNat

/-- Drop the blanks at the front. -/
def trimStart (cs : List Char) : List Char := cs.dropWhile isBlank

/-- Drop the blanks at the back. -/
def trimEnd (cs : List Char) : List Char := (cs.reverse.dropWhile isBlank).reverse

/-- Drop the blanks at both ends. -/
def trim (cs : List Char) : List Char := trimEnd (trimStart cs)

/-- `trim` on strings. -/
def trimString (s : String) : String := String.ofList (trim s.toList)

/-- Whether a string holds nothing but blanks. -/
def isBlankText (s : String) : Bool := s.toList.all isBlank

end Text

end ContractGen
