import ContractGen.Json.Cursor

/-!
# Reading numbers

A number without fraction and exponent is an integer if it fits in 64 bits. Any other number is a
double: its first digits, as many as fit in 64 bits, scaled by a power of ten. The digits after
those count for the magnitude only, so the result can miss the nearest double by its last bit.
-/

namespace ContractGen

namespace Json

/-- The value of a decimal digit. -/
def digitValue (c : Char) : Nat := c.toNat - '0'.toNat

/-- Append digits to a significand while it stays below `2 ^ 64`; also the number of digits that
were appended. -/
def absorbDigits (significand : Nat) : List Char → Nat × Nat
  | [] => (significand, 0)
  | c :: cs =>
    let next := significand * 10 + digitValue c
    if next < 1 <<< 64 then
      let (all, taken) := absorbDigits next cs
      (all, taken + 1)
    else (significand, 0)

/-- The exponent that digits form, or the number of digits up to the one that takes it to
`2 ^ 31`. -/
def exponentOf (exponent : Nat) : List Char → Except Nat Nat
  | [] => .ok exponent
  | c :: cs =>
    let next := exponent * 10 + digitValue c
    if next < 1 <<< 31 then (exponentOf next cs).mapError (· + 1) else .error 1

/-- A double from its parts. -/
def doubleFrom (negative : Bool) (significand : Nat) (exponent : Int) (cur : Cursor) :
    Except Failure (Number × Cursor) :=
  match (Double.ofNat? significand).bind (·.scale? exponent) with
  | some d => .ok (.double (if negative then d.neg else d), cur)
  | none => flawAt .numberTooLarge cur.place

/-- Whether an exponent is negative, with the cursor after its sign. -/
def exponentSign (cur : Cursor) : Bool × Cursor :=
  match cur.rest with
  | '+' :: _ => (false, cur.skipAscii 1)
  | '-' :: _ => (true, cur.skipAscii 1)
  | _ => (false, cur)

/-- The digits of an exponent, which is negative if `down` is set. -/
def readExponentDigits (negative : Bool) (significand : Nat) (exponent : Int) (down : Bool)
    (cur : Cursor) : Except Failure (Number × Cursor) :=
  match cur.rest with
  | [] => flawAt .endInValue cur.place
  | c :: _ =>
    if !c.isDigit then flawAt .badNumber cur.nextByte
    else
      let digits := cur.rest.takeWhile Char.isDigit
      match exponentOf 0 digits with
      | .ok e =>
        doubleFrom negative significand (if down then exponent - e else exponent + e)
          (cur.skipAscii digits.length)
      | .error count =>
        if significand != 0 && !down then flawAt .numberTooLarge (cur.skipAscii count).place
        else .ok (.double { Double.zero with negative }, cur.skipAscii digits.length)

/-- The exponent part of a number, at its mark. -/
def readExponent (negative : Bool) (significand : Nat) (exponent : Int) (cur : Cursor) :
    Except Failure (Number × Cursor) :=
  let (down, cur) := exponentSign (cur.skipAscii 1)
  readExponentDigits negative significand exponent down cur

/-- What follows the fraction of a number, if anything. -/
def readScaled (negative : Bool) (significand : Nat) (exponent : Int) (cur : Cursor) :
    Except Failure (Number × Cursor) :=
  match cur.rest with
  | 'e' :: _ => readExponent negative significand exponent cur
  | 'E' :: _ => readExponent negative significand exponent cur
  | _ => doubleFrom negative significand exponent cur

/-- The fraction of a number, at its point. -/
def readFraction (negative : Bool) (significand : Nat) (exponent : Int) (cur : Cursor) :
    Except Failure (Number × Cursor) :=
  let cur := cur.skipAscii 1
  let digits := cur.rest.takeWhile Char.isDigit
  if digits.isEmpty then
    if cur.rest.isEmpty then flawAt .endInValue cur.place else flawAt .badNumber cur.nextByte
  else
    let (significand, taken) := absorbDigits significand digits
    readScaled negative significand (exponent - taken) (cur.skipAscii digits.length)

/-- The integer with these digits, or the double if it does not fit; minus zero is a double. -/
def wholeNumber (negative : Bool) (significand : Nat) (cur : Cursor) :
    Except Failure (Number × Cursor) :=
  if !negative then .ok (.int significand, cur)
  else if significand == 0 || 1 <<< 63 < significand then doubleFrom true significand 0 cur
  else .ok (.int (-significand), cur)

/-- What follows the whole part of a number, whose last digits are left out of the significand. -/
def readTail (negative : Bool) (significand dropped : Nat) (cur : Cursor) :
    Except Failure (Number × Cursor) :=
  match cur.rest with
  | '.' :: _ => readFraction negative significand dropped cur
  | 'e' :: _ => readExponent negative significand dropped cur
  | 'E' :: _ => readExponent negative significand dropped cur
  | _ =>
    if dropped == 0 then wholeNumber negative significand cur
    else doubleFrom negative significand dropped cur

/-- A number, at its first digit. -/
def readNumber (negative : Bool) (cur : Cursor) : Except Failure (Number × Cursor) :=
  match cur.rest with
  | [] => flawAt .endInValue cur.place
  | c :: _ =>
    let digits := cur.rest.takeWhile Char.isDigit
    if digits.isEmpty then flawAt .badNumber cur.nextByte
    else if c == '0' && 1 < digits.length then flawAt .badNumber (cur.skipAscii 1).nextByte
    else
      let (significand, taken) := absorbDigits 0 digits
      let dropped := digits.length - taken
      readTail negative significand dropped (cur.skipAscii digits.length)

end Json

end ContractGen
