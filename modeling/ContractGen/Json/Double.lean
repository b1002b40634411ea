/-!
# Double-precision numbers

A finite double is a sign and a magnitude `significand * 2 ^ exponent`, with at most 53 bits of
significand and an exponent of at least -1074. `round?` takes a fraction to the nearest double, an
exact half to the even neighbour; products and quotients are the exact ones rounded.

`scale?` multiplies by a power of ten the way the number reader does: by one rounded power when
there is such a double, and otherwise by steps of `10 ^ -308`.
-/

namespace ContractGen

namespace Json

/-- A finite double-precision number. -/
structure Double where
  /-- Whether the sign is minus; zero has a sign too. -/
  negative : Bool
  /-- The significand, below `2 ^ 53`. -/
  significand : Nat
  /-- The binary exponent, at least -1074. -/
  exponent : Int
deriving DecidableEq, Repr

namespace Double

/-- Zero with the sign plus. -/
def zero : Double := ⟨false, 0, -1074⟩

/-- Whether the magnitude is zero. -/
def isZero (d : Double) : Bool := d.significand == 0

/-- The same magnitude with the other sign. -/
def neg (d : Double) : Double := { d with negative := !d.negative }

/-- The numerator of the magnitude over `den`. -/
def num (d : Double) : Nat := d.significand <<< d.exponent.toNat

/-- The denominator of the magnitude, a power of two. -/
def den (d : Double) : Nat := 1 <<< (-d.exponent).toNat

/-- The quotient rounded to the nearest integer, a half to the even one. -/
def roundDiv (num den : Nat) : Nat :=
  let quotient := num / den
  let twice := 2 * (num % den)
  if den < twice || (twice == den && quotient % 2 == 1) then quotient + 1 else quotient

/-- `num / den` in units of `2 ^ exponent`, rounded. -/
def inUnits (num den : Nat) (exponent : Int) : Nat :=
  roundDiv (num <<< (-exponent).toNat) (den <<< exponent.toNat)

/-- The exponent of the double nearest to `num / den`: the magnitude has 53 bits in its unit, or the
unit is the smallest one. -/
def unitOf (num den : Nat) : Int :=
  let guess : Int := (num.log2 : Int) - den.log2 - 52
  let exponent :=
    if num <<< (-guess).toNat < den <<< guess.toNat <<< 52 then guess - 1 else guess
  max exponent (-1074)

/-- The double nearest to `num / den`, unless that is too large to be finite. -/
def round? (negative : Bool) (num den : Nat) : Option Double :=
  if num == 0 then some { zero with negative }
  else
    let exponent := unitOf num den
    let significand := inUnits num den exponent
    let d : Double :=
      if significand == 1 <<< 53 then ⟨negative, 1 <<< 52, exponent + 1⟩
      else ⟨negative, significand, exponent⟩
    if 971 < d.exponent then none else some d

/-- The product, unless it is too large. -/
def mul? (a b : Double) : Option Double :=
  round? (a.negative != b.negative) (a.num * b.num) (a.den * b.den)

/-- The quotient, unless it is too large. -/
def div? (a b : Double) : Option Double :=
  round? (a.negative != b.negative) (a.num * b.den) (a.den * b.num)

/-- The double nearest to a natural number, unless that is too large. -/
def ofNat? (n : Nat) : Option Double := round? false n 1

/-- Multiply by `10 ^ exponent`; `none` if the result is too large. The first argument bounds the
steps of `10 ^ -308`. -/
def scaleSteps? : Nat → Double → Int → Option Double
  | 0, d, _ => some d
  | steps + 1, d, exponent =>
    if exponent.natAbs ≤ 308 then do
      let power ← ofNat? (Nat.pow 10 exponent.natAbs)
      if 0 ≤ exponent then d.mul? power else d.div? power
    else if d.isZero then some d
    else if 0 ≤ exponent then none
    else do
      let power ← ofNat? (Nat.pow 10 308)
      let smaller ← d.div? power
      scaleSteps? steps smaller (exponent + 308)

/-- Multiply by `10 ^ exponent`; `none` if the result is too large. -/
def scale? (d : Double) (exponent : Int) : Option Double :=
  scaleSteps? (exponent.natAbs / 308 + 1) d exponent

end Double

end Json

end ContractGen
