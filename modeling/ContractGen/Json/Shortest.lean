import ContractGen.Json.Double

/-!
# Shortest decimals

`Double.shortest` is the decimal with the fewest digits that still reads back as the double, and
among those the one nearest to it. For one digit, two digits and so on the two neighbours of the
double on that decimal grid are tested against the interval of reals that round to the double; the
first grid with a hit wins, and the nearest point of 17 digits always is one.
-/

namespace ContractGen

namespace Json

/-- The number `digits * 10 ^ exponent`. -/
structure Decimal where
  /-- The digits, as a number. -/
  digits : Nat
  /-- The power of ten of the last digit. -/
  exponent : Int
deriving DecidableEq, Repr

namespace Decimal

/-- The digits, most significant first. -/
def text (d : Decimal) : List Char := Nat.toDigits 10 d.digits

/-- The power of ten of the first digit. -/
def magnitude (d : Decimal) : Int := d.exponent + d.text.length - 1

/-- Drop zeros at the end of the digits, at most `n` of them. -/
def stripZeros : Decimal → Nat → Decimal
  | d, 0 => d
  | d, n + 1 =>
    if d.digits % 10 == 0 && d.digits != 0 then
      stripZeros ⟨d.digits / 10, d.exponent + 1⟩ n
    else d

end Decimal

namespace Double

/-- The greatest `k` with `10 ^ k ≤ num / den`, for a positive fraction. -/
def floorLog10 (num den : Nat) : Int :=
  if den ≤ num then ((Nat.toDigits 10 (num / den)).length : Int) - 1
  else
    let length := (Nat.toDigits 10 (den / num)).length
    if den ≤ num * Nat.pow 10 (length - 1) then -((length : Int) - 1) else -(length : Int)

/-- The interval of reals that round to `d`, in quarters of its unit. -/
def interval (d : Double) : Nat × Nat :=
  let below := if d.significand == 1 <<< 52 && -1074 < d.exponent then 1 else 2
  (4 * d.significand - below, 4 * d.significand + 2)

/-- Whether `n * 10 ^ grid` rounds to `d`. -/
def readsBack (d : Double) (n : Nat) (grid : Int) : Bool :=
  let (low, high) := d.interval
  let quarters := Nat.pow 10 (-grid).toNat <<< (d.exponent - 2).toNat
  let point := (n * Nat.pow 10 grid.toNat) <<< (2 - d.exponent).toNat
  if d.significand % 2 == 0 then low * quarters ≤ point && point ≤ high * quarters
  else low * quarters < point && point < high * quarters

/-- The neighbour of `d` on the grid of multiples of `10 ^ grid` that reads back; of two the nearer,
and of two equally near the even one. -/
def onGrid? (d : Double) (grid : Int) : Option Nat :=
  let num := d.num * Nat.pow 10 (-grid).toNat
  let den := d.den * Nat.pow 10 grid.toNat
  let below := num / den
  let nearest := roundDiv num den
  let other := if nearest == below then below + 1 else below
  if readsBack d nearest grid then some nearest
  else if readsBack d other grid then some other
  else none

/-- The first decimal that reads back among those with `places` digits and more. The first argument
bounds the grids that are tested; on the grid after them the nearest point is taken. -/
def shortestFrom (d : Double) (magnitude : Int) : Nat → Nat → Decimal
  | 0, places =>
    let grid := magnitude - (places : Int) + 1
    ⟨roundDiv (d.num * Nat.pow 10 (-grid).toNat) (d.den * Nat.pow 10 grid.toNat), grid⟩
  | tests + 1, places =>
    let grid := magnitude - (places : Int) + 1
    match onGrid? d grid with
    | some n => ⟨n, grid⟩
    | none => shortestFrom d magnitude tests (places + 1)

/-- The shortest decimal that reads back as the magnitude of `d`. -/
def shortest (d : Double) : Decimal :=
  if d.isZero then ⟨0, 0⟩
  else (shortestFrom d (floorLog10 d.num d.den) 16 1).stripZeros 17

end Double

end Json

end ContractGen
