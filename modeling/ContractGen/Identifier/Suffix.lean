/-!
# Free suffixes

A name that is taken is made free by a number after it. `withFreeSuffix` finds the smallest number
from `start` on that makes the name free; among one more numbers than there are taken names there
is always one, so the search is bounded.
-/

namespace ContractGen

namespace Identifier

/-- The first free name among `base` followed by `n`, `n + 1`, …; the first argument bounds the
names that are tested, and the one after them is returned untested. -/
def searchSuffix (base : String) (taken : List String) : Nat → Nat → String
  | 0, n => base ++ toString n
  | tests + 1, n =>
    if taken.contains (base ++ toString n) then searchSuffix base taken tests (n + 1)
    else base ++ toString n

/-- `base` followed by the smallest number, at least `start`, that gives a name not in `taken`. -/
def withFreeSuffix (base : String) (start : Nat) (taken : List String) : String :=
  searchSuffix base taken taken.length start

/-- `name` itself if it is free, and otherwise `base` with the smallest free number from `start`. -/
def freeName (name base : String) (start : Nat) (taken : List String) : String :=
  if taken.contains name then withFreeSuffix base start taken else name

end Identifier

end ContractGen
