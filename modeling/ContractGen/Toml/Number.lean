import ContractGen.Text.Split
import ContractGen.Toml.Value

/-!
# TOML numbers and dates

What stands without quotes where a value is due: truth values, integers in four bases, numbers with
a point or exponent, dates and times. `scalar?` tells them apart by their form as a whole.
-/

namespace ContractGen

namespace Toml

/-! ### Numbers -/

/-- Digits with single underscores between them, without these. -/
def digits? (isDigit : Char → Bool) (cs : List Char) : Option (List Char) :=
  let groups := Text.splitBy (· == '_') cs
  if groups.all fun group => !group.isEmpty && group.all isDigit then some groups.flatten else none

/-- The value of a digit, for digits and letters up to `f`. -/
def digitValue (c : Char) : Nat :=
  if c.isDigit then c.toNat - '0'.toNat else c.toLower.toNat - 'a'.toNat + 10

/-- The number of some digits. -/
def ofDigits (base : Nat) (cs : List Char) : Nat :=
  cs.foldl (fun n c => base * n + digitValue c) 0

/-- The digits of a whole number, which has no zero in front of others. -/
def whole? (cs : List Char) : Option (List Char) :=
  match cs with
  | '0' :: _ :: _ => none
  | _ => digits? Char.isDigit cs

/-- The sign of a number, true if it is negative, and the rest. -/
def splitSign : List Char → Bool × List Char
  | '-' :: rest => (true, rest)
  | '+' :: rest => (false, rest)
  | cs => (false, cs)

/-- An integer. -/
def integer? (cs : List Char) : Option Int :=
  let based (base : Nat) (isDigit : Char → Bool) (digits : List Char) : Option Int :=
    (digits? isDigit digits).map fun ds => (ofDigits base ds : Int)
  match cs with
  | '0' :: 'x' :: rest =>
    based 16 (fun c => c.isDigit || ('a' ≤ c.toLower && c.toLower ≤ 'f')) rest
  | '0' :: 'o' :: rest => based 8 (fun c => '0' ≤ c && c ≤ '7') rest
  | '0' :: 'b' :: rest => based 2 (fun c => c == '0' || c == '1') rest
  | cs =>
    let (negative, rest) := splitSign cs
    (whole? rest).map fun ds => if negative then -(ofDigits 10 ds : Int) else ofDigits 10 ds

/-- Whether `significand * 10 ^ exponent` rounds to a double rather than to infinity. -/
def isFinite (significand : Nat) (exponent : Int) : Bool :=
  let magnitude := (Nat.toDigits 10 significand).length + exponent
  if significand = 0 || magnitude < 300 then true
  else if 320 < magnitude then false
  else
    let bound := (1 <<< 1024) - (1 <<< 970)
    if 0 ≤ exponent then significand * Nat.pow 10 exponent.toNat < bound
    else significand < bound * Nat.pow 10 (-exponent).toNat

/-- A list cut at the first character that satisfies `p`, with what follows that. -/
def cutAt (p : Char → Bool) (cs : List Char) : List Char × Option (List Char) :=
  match cs.dropWhile (fun c => !p c) with
  | [] => (cs, none)
  | _ :: after => (cs.takeWhile (fun c => !p c), some after)

/-- The exponent of a number. -/
def exponent? : Option (List Char) → Option Int
  | none => some 0
  | some cs =>
    let (negative, rest) := splitSign cs
    (digits? Char.isDigit rest).map fun ds =>
      if negative then -(ofDigits 10 ds : Int) else ofDigits 10 ds

/-- The digits after the point. -/
def fraction? : Option (List Char) → Option (List Char)
  | none => some []
  | some cs => digits? Char.isDigit cs

/-- A number with a point or an exponent; whether a double has room for it. -/
def float? (cs : List Char) : Option Bool :=
  let (_, unsigned) := splitSign cs
  if unsigned = "inf".toList || unsigned = "nan".toList then some true
  else
    let (mantissa, exponent) := cutAt (fun c => c == 'e' || c == 'E') unsigned
    let (wholePart, fraction) := cutAt (· == '.') mantissa
    if exponent.isNone && fraction.isNone then none
    else do
      let ds ← whole? wholePart
      let fs ← fraction? fraction
      let e ← exponent? exponent
      return isFinite (ofDigits 10 (ds ++ fs)) (e - fs.length)

/-! ### Dates and times -/

/-- The number of exactly `n` digits at the start, and the rest. -/
def takeNumber (n : Nat) (cs : List Char) : Option (Nat × List Char) :=
  let ds := cs.take n
  if ds.length = n && ds.all Char.isDigit then some (ofDigits 10 ds, cs.drop n) else none

/-- What follows the character `c` at the start. -/
def after? (c : Char) : List Char → Option (List Char)
  | d :: rest => if d = c then some rest else none
  | [] => none

/-- The number of days of a month. -/
def daysIn (year month : Nat) : Nat :=
  let isLeap := year % 4 = 0 && (year % 100 != 0 || year % 400 = 0)
  if month = 2 then (if isLeap then 29 else 28)
  else if month = 4 || month = 6 || month = 9 || month = 11 then 30
  else 31

/-- What follows a date. -/
def afterDate? (cs : List Char) : Option (List Char) := do
  let (year, cs) ← takeNumber 4 cs
  let (month, cs) ← takeNumber 2 (← after? '-' cs)
  let (day, cs) ← takeNumber 2 (← after? '-' cs)
  if 1 ≤ month && month ≤ 12 && 1 ≤ day && day ≤ daysIn year month then some cs else none

/-- What follows the fraction of a second, if there is one. -/
def afterFraction? : List Char → Option (List Char)
  | '.' :: cs =>
    if (cs.takeWhile Char.isDigit).isEmpty then none else some (cs.dropWhile Char.isDigit)
  | cs => some cs

/-- What follows the seconds of a time, if it has them. -/
def afterSeconds? : List Char → Option (List Char)
  | ':' :: cs => do
    let (second, cs) ← takeNumber 2 cs
    if second ≤ 60 then afterFraction? cs else none
  | cs => some cs

/-- What follows a time; seconds may be left out. -/
def afterTime? (cs : List Char) : Option (List Char) := do
  let (hour, cs) ← takeNumber 2 cs
  let (minute, cs) ← takeNumber 2 (← after? ':' cs)
  if hour ≤ 23 && minute ≤ 59 then afterSeconds? cs else none

/-- Whether a text is the offset of a time zone, or nothing. -/
def isOffset : List Char → Bool
  | [] => true
  | ['Z'] => true
  | ['z'] => true
  | sign :: cs =>
    (sign == '+' || sign == '-') &&
      match (do
        let (hour, cs) ← takeNumber 2 cs
        let (minute, cs) ← takeNumber 2 (← after? ':' cs)
        return hour ≤ 23 && minute ≤ 59 && cs.isEmpty : Option Bool) with
      | some ok => ok
      | none => false

/-- Whether a text is a date. -/
def isDate (cs : List Char) : Bool := afterDate? cs == some []

/-- Whether a character parts a date from a time. -/
def isDateEnd (c : Char) : Bool := c == 'T' || c == 't' || c == ' '

/-- Whether a text is a date, a time, or a date with a time. -/
def isDatetime (cs : List Char) : Bool :=
  match afterDate? cs with
  | some [] => true
  | some (c :: rest) =>
    isDateEnd c &&
      match afterTime? rest with
      | some offset => isOffset offset
      | none => false
  | none => afterTime? cs == some []

/-! ### Scalars -/

/-- The value of a text without quotes. -/
def scalar? (cs : List Char) : Option Value :=
  if cs = "true".toList then some (.boolean true)
  else if cs = "false".toList then some (.boolean false)
  else if isDatetime cs then some .datetime
  else
    match integer? cs with
    | some n => some (.integer n)
    | none => (float? cs).map .float

end Toml

end ContractGen
