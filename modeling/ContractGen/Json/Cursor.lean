import ContractGen.Json.Failure

/-!
# Reading position

A `Cursor` is what is left of a text and the place where that starts. A place counts bytes, so it
can lie within a character: `Cursor.nextByte` is the place after the first byte of what is left,
where the complaint about an unexpected character points.
-/

namespace ContractGen

namespace Json

/-- The place after a character. -/
def Place.after (p : Place) (c : Char) : Place :=
  if c = '\n' then ⟨p.line + 1, 0⟩ else ⟨p.line, p.column + c.utf8Size⟩

/-- What is left of a text. -/
structure Cursor where
  /-- The characters that are left. -/
  rest : List Char
  /-- Where they start. -/
  place : Place

namespace Cursor

/-- The start of a text. -/
def ofText (text : String) : Cursor := ⟨text.toList, ⟨1, 0⟩⟩

/-- The cursor after the next character, which is `c`; `rest` follows it. -/
def step (cur : Cursor) (c : Char) (rest : List Char) : Cursor := ⟨rest, cur.place.after c⟩

/-- The cursor `n` characters on, all of them ASCII and none a line feed. -/
def skipAscii (cur : Cursor) (n : Nat) : Cursor :=
  ⟨cur.rest.drop n, ⟨cur.place.line, cur.place.column + n⟩⟩

/-- The place after the next byte, or the end of the text. -/
def nextByte (cur : Cursor) : Place :=
  match cur.rest with
  | [] => cur.place
  | '\n' :: _ => ⟨cur.place.line + 1, 0⟩
  | _ :: _ => ⟨cur.place.line, cur.place.column + 1⟩

/-- The place `n` bytes on, or `none` if fewer are left. -/
def placeAfter? (place : Place) : List Char → Nat → Option Place
  | _, 0 => some place
  | [], _ + 1 => none
  | c :: rest, n + 1 =>
    if c.utf8Size ≤ n + 1 then placeAfter? (place.after c) rest (n + 1 - c.utf8Size)
    else some ⟨place.line, place.column + (n + 1)⟩

/-- The end of the text. -/
def endPlace (place : Place) : List Char → Place
  | [] => place
  | c :: rest => endPlace (place.after c) rest

/-- The blanks of JSON. -/
def isBlank (c : Char) : Bool := c == ' ' || c == '\n' || c == '\t' || c == '\r'

/-- Skip blanks from a place on. -/
def skipBlanksFrom (place : Place) : List Char → Cursor
  | [] => ⟨[], place⟩
  | c :: rest => if isBlank c then skipBlanksFrom (place.after c) rest else ⟨c :: rest, place⟩

/-- Skip blanks. -/
def skipBlanks (cur : Cursor) : Cursor := skipBlanksFrom cur.place cur.rest

end Cursor

/-- A failure by a flaw at a place. -/
def flawAt {α : Type} (flaw : Flaw) (place : Place) : Except Failure α :=
  .error ⟨.flaw flaw, some place⟩

/-- A failure by a mismatch at a place. -/
def mismatchAt {α : Type} (mismatch : Mismatch) (place : Place) : Except Failure α :=
  .error ⟨.mismatch mismatch, some place⟩

/-- The result of a conversion, whose mismatch is noticed at a place. -/
def placed {α : Type} (result : Except Mismatch α) (place : Place) : Except Failure α :=
  match result with
  | .ok a => .ok a
  | .error m => mismatchAt m place

end Json

end ContractGen
