import ContractGen.Json.Cursor

/-!
# Reading strings

A string runs from its opening quote to the next quote that no backslash precedes. The escape `\u`
takes four bytes as hexadecimal digits; two such escapes in a row can form one character above
`U+FFFF`, and a half of such a pair must not stand alone.
-/

namespace ContractGen

namespace Json

/-- The value of a hexadecimal digit. -/
def hexValue? (c : Char) : Option Nat :=
  if c.isDigit then some (c.toNat - '0'.toNat)
  else if 'a' ≤ c && c ≤ 'f' then some (c.toNat - 'a'.toNat + 10)
  else if 'A' ≤ c && c ≤ 'F' then some (c.toNat - 'A'.toNat + 10)
  else none

/-- The number that four hexadecimal digits form. -/
def hex4? : List Char → Option Nat
  | a :: b :: c :: d :: _ => do
    let a ← hexValue? a
    let b ← hexValue? b
    let c ← hexValue? c
    let d ← hexValue? d
    some (((a * 16 + b) * 16 + c) * 16 + d)
  | _ => none

/-- Four hexadecimal digits. -/
def readHex4 (cur : Cursor) : Except Failure (Nat × Cursor) :=
  match Cursor.placeAfter? cur.place cur.rest 4 with
  | none => flawAt .endInString (Cursor.endPlace cur.place cur.rest)
  | some place =>
    match hex4? cur.rest with
    | some n => .ok (n, cur.skipAscii 4)
    | none => flawAt .badEscape place

/-- The next character, which must be `c`, within a surrogate pair. -/
def readHalf (c : Char) (cur : Cursor) : Except Failure Cursor :=
  match cur.rest with
  | [] => flawAt .endInString cur.place
  | d :: rest => if d = c then .ok (cur.step d rest) else flawAt .halfSurrogate cur.nextByte

/-- The character of a `\u` escape, after its `u`. -/
def readUnicode (cur : Cursor) : Except Failure (Char × Cursor) := do
  let (high, cur) ← readHex4 cur
  if 0xdc00 ≤ high && high ≤ 0xdfff then flawAt .loneSurrogate cur.place
  else if 0xd800 ≤ high && high ≤ 0xdbff then
    let cur ← readHalf '\\' cur
    let cur ← readHalf 'u' cur
    let (low, cur) ← readHex4 cur
    if 0xdc00 ≤ low && low ≤ 0xdfff then
      .ok (Char.ofNat ((high - 0xd800) * 0x400 + (low - 0xdc00) + 0x10000), cur)
    else flawAt .loneSurrogate cur.place
  else .ok (Char.ofNat high, cur)

/-- The character that a letter after a backslash stands for. -/
def simpleEscape? (c : Char) : Option Char :=
  match c with
  | '"' => some '"'
  | '\\' => some '\\'
  | '/' => some '/'
  | 'b' => some '\x08'
  | 'f' => some '\x0c'
  | 'n' => some '\n'
  | 'r' => some '\r'
  | 't' => some '\t'
  | _ => none

/-- The character of an escape, after its backslash. -/
def readEscape (cur : Cursor) : Except Failure (Char × Cursor) :=
  match cur.rest with
  | [] => flawAt .endInString cur.place
  | c :: rest =>
    if c = 'u' then readUnicode (cur.step c rest)
    else
      match simpleEscape? c with
      | some d => .ok (d, cur.step c rest)
      | none => flawAt .badEscape cur.nextByte

/-- The rest of a string after the characters `done`, which are in reverse. The first argument
bounds the characters that are read. -/
def readStringFrom : Nat → List Char → Cursor → Except Failure (String × Cursor)
  | 0, _, cur => flawAt .endInString cur.place
  | fuel + 1, done, cur =>
    match cur.rest with
    | [] => flawAt .endInString cur.place
    | c :: rest =>
      if c = '"' then .ok (String.ofList done.reverse, cur.step c rest)
      else if c = '\\' then do
        let (d, cur) ← readEscape (cur.step c rest)
        readStringFrom fuel (d :: done) cur
      else if c.toNat < 0x20 then flawAt .controlCharacter (cur.step c rest).place
      else readStringFrom fuel (c :: done) (cur.step c rest)

/-- A string, after its opening quote. -/
def readString (cur : Cursor) : Except Failure (String × Cursor) :=
  readStringFrom (cur.rest.length + 1) [] cur

end Json

end ContractGen
