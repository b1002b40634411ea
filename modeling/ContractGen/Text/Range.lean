/-!
# Tables of character ranges

A property of characters is kept as the list of its code point ranges. The tables of this folder
are such lists, one per property; `Ranges.has` is the membership test they share.
-/

namespace ContractGen

namespace Text

/-- Closed ranges of code points, in ascending order. -/
abbrev Ranges := List (Nat × Nat)

/-- Whether code point `n` lies in one of the ranges; the scan ends at the first range above `n`. -/
def Ranges.has : Ranges → Nat → Bool
  | [], _ => false
  | (lo, hi) :: rest, n => if n < lo then false else n ≤ hi || Ranges.has rest n

end Text

end ContractGen
