import ContractGen.Text.Alphabetic
import ContractGen.Text.Numeric

/-!
# Alphanumeric characters

The characters that make up the words of a name: letters and numbers of every script.
-/

namespace ContractGen

namespace Text

/-- Whether `c` is a letter or a number. -/
def isAlphanumeric (c : Char) : Bool := isAlphabetic c || isNumeric c

end Text

end ContractGen
