import ContractGen.Json.Reader.Value

/-!
# Skipping values

A value that nobody asks for is skipped: its brackets must match and its strings and numbers must
be well formed, but it may be nested to any depth, its numbers may have any size and its escapes
may name halves of surrogate pairs. The open arrays and objects are kept in a list.
-/

namespace ContractGen

namespace Json

/-- An array or object that is open. -/
inductive Frame where
  /-- An array. -/
  | list
  /-- An object. -/
  | object
deriving DecidableEq, Repr

/-- Skip decimal digits. -/
def skipDigits (cur : Cursor) : Cursor :=
  cur.skipAscii (cur.rest.takeWhile Char.isDigit).length

/-- Skip at least one digit. -/
def skimDigits (cur : Cursor) : Except Failure Cursor :=
  match cur.rest with
  | [] => flawAt .badNumber cur.place
  | c :: _ => if c.isDigit then .ok (skipDigits cur) else flawAt .badNumber cur.nextByte

/-- Skip the exponent of a number, if it has one. -/
def skimExponent (cur : Cursor) : Except Failure Cursor :=
  match cur.rest with
  | c :: rest =>
    if c = 'e' || c = 'E' then skimDigits (exponentSign (cur.step c rest)).2 else .ok cur
  | [] => .ok cur

/-- Skip what follows the whole part of a number. -/
def skimFraction (cur : Cursor) : Except Failure Cursor :=
  match cur.rest with
  | '.' :: rest => do skimExponent (← skimDigits (cur.step '.' rest))
  | _ => skimExponent cur

/-- Skip a number, at its first digit. -/
def skimNumber (cur : Cursor) : Except Failure Cursor :=
  match cur.rest with
  | '0' :: rest =>
    match rest with
    | d :: _ =>
      if d.isDigit then flawAt .badNumber (cur.skipAscii 1).nextByte
      else skimFraction (cur.skipAscii 1)
    | [] => .ok (cur.skipAscii 1)
  | _ => do skimFraction (← skimDigits cur)

/-- Skip an escape, after its backslash. -/
def skimEscape (cur : Cursor) : Except Failure Cursor :=
  match cur.rest with
  | [] => flawAt .endInString cur.place
  | c :: rest =>
    if c = 'u' then (readHex4 (cur.step c rest)).map (·.2)
    else if (simpleEscape? c).isSome then .ok (cur.step c rest)
    else flawAt .badEscape cur.nextByte

/-- Skip a string after its opening quote. The first argument bounds its characters. -/
def skimStringFrom : Nat → Cursor → Except Failure Cursor
  | 0, cur => flawAt .endInString cur.place
  | fuel + 1, cur =>
    match cur.rest with
    | [] => flawAt .endInString cur.place
    | c :: rest =>
      if c = '"' then .ok (cur.step c rest)
      else if c = '\\' then do skimStringFrom fuel (← skimEscape (cur.step c rest))
      else if c.toNat < 0x20 then flawAt .controlCharacter cur.place
      else skimStringFrom fuel (cur.step c rest)

/-- Skip a string, after its opening quote. -/
def skimString (cur : Cursor) : Except Failure Cursor := skimStringFrom (cur.rest.length + 1) cur

/-- Skip a scalar, at its first character. -/
def skimScalar (cur : Cursor) : Except Failure Cursor :=
  match cur.rest with
  | [] => flawAt .endInValue cur.place
  | c :: rest =>
    if c = 'n' then readWord ['u', 'l', 'l'] (cur.step c rest)
    else if c = 't' then readWord ['r', 'u', 'e'] (cur.step c rest)
    else if c = 'f' then readWord ['a', 'l', 's', 'e'] (cur.step c rest)
    else if c = '-' then skimNumber (cur.step c rest)
    else if c.isDigit then skimNumber cur
    else if c = '"' then skimString (cur.step c rest)
    else flawAt .noValue cur.nextByte

/-- Skip the key of an entry with its colon. -/
def skimKey (cur : Cursor) : Except Failure Cursor :=
  let cur := cur.skipBlanks
  match cur.rest with
  | [] => flawAt .endInObject cur.place
  | c :: rest =>
    if c = '"' then do readColon (← skimString (cur.step c rest))
    else flawAt .keyNoString cur.nextByte

/-- What comes next within the open arrays and objects. -/
inductive Due where
  /-- A value. -/
  | value
  /-- An item or entry of the innermost frame. -/
  | member
  /-- The end of the innermost frame, or else a member; a comma goes first unless it is empty. -/
  | next (isEmpty : Bool)
deriving DecidableEq, Repr

/-- The complaint about a text that ends within a frame. -/
def Frame.atEnd : Frame → Flaw
  | .list => .endInList
  | .object => .endInObject

/-- The complaint about something other than a comma or the end of a frame. -/
def Frame.unended : Frame → Flaw
  | .list => .noListEnd
  | .object => .noObjectEnd

/-- The character that closes a frame. -/
def Frame.closer : Frame → Char
  | .list => ']'
  | .object => '\x7d'

/-- Skip the rest of a value within open frames. The first argument bounds the steps. -/
def skimFrom : Nat → Due → List Frame → Cursor → Except Failure Cursor
  | 0, _, _, cur => flawAt .endInValue cur.place
  | fuel + 1, .value, frames, cur => do
    let cur := cur.skipBlanks
    match cur.rest with
    | '[' :: rest => skimFrom fuel (.next true) (.list :: frames) (cur.step '[' rest)
    | '\x7b' :: rest => skimFrom fuel (.next true) (.object :: frames) (cur.step '\x7b' rest)
    | _ => skimFrom fuel (.next false) frames (← skimScalar cur)
  | _ + 1, .next _, [], cur => .ok cur
  | fuel + 1, .next isEmpty, frame :: frames, cur =>
    let cur := cur.skipBlanks
    match cur.rest with
    | [] => flawAt frame.atEnd cur.place
    | c :: rest =>
      if c = ',' && !isEmpty then skimFrom fuel .member (frame :: frames) (cur.step c rest)
      else if c = frame.closer then skimFrom fuel (.next false) frames (cur.step c rest)
      else if isEmpty then skimFrom fuel .member (frame :: frames) cur
      else flawAt frame.unended cur.nextByte
  | fuel + 1, .member, frames, cur =>
    match frames with
    | .object :: _ => do skimFrom fuel .value frames (← skimKey cur)
    | _ => skimFrom fuel .value frames cur

/-- Skip a value. -/
def skimValue (cur : Cursor) : Except Failure Cursor :=
  skimFrom (3 * cur.rest.length + 3) .value [] cur

end Json

end ContractGen
