import ContractGen.Json.Reader.Number
import ContractGen.Json.Reader.String

/-!
# Reading values

`readValue` reads one value and leaves what follows it; `parse` reads a whole text. Arrays and
objects are walked by `foldItems` and `foldEntries`, which leave it to their argument how an item
or an entry is read: the reader of a particular kind of document walks its arrays and objects with
the same two functions.
-/

namespace ContractGen

namespace Json

/-- How many arrays and objects may be open at the same time. -/
def maxDepth : Nat := 127

/-- The rest of a literal, whose first letter has been seen. -/
def readWord (word : List Char) (cur : Cursor) : Except Failure Cursor :=
  match word with
  | [] => .ok cur
  | w :: word =>
    match cur.rest with
    | [] => flawAt .endInValue cur.place
    | c :: rest => if c = w then readWord word (cur.step c rest) else flawAt .noLiteral cur.nextByte

/-- The colon after a key. -/
def readColon (cur : Cursor) : Except Failure Cursor :=
  let cur := cur.skipBlanks
  match cur.rest with
  | [] => flawAt .endInObject cur.place
  | c :: rest => if c = ':' then .ok (cur.step c rest) else flawAt .noColon cur.nextByte

/-- Whether an array goes on, with the cursor at its next item or after its bracket. -/
def nextItem (first : Bool) (cur : Cursor) : Except Failure (Bool × Cursor) :=
  let cur := cur.skipBlanks
  match cur.rest with
  | [] => flawAt .endInList cur.place
  | c :: rest =>
    if c = ']' then .ok (false, cur.step c rest)
    else if first then .ok (true, cur)
    else if c = ',' then
      let cur := (cur.step c rest).skipBlanks
      match cur.rest with
      | [] => flawAt .endInValue cur.place
      | d :: _ => if d = ']' then flawAt .trailingComma cur.nextByte else .ok (true, cur)
    else flawAt .noListEnd cur.nextByte

/-- The key at the cursor, which is at its quote. -/
def readKey (cur : Cursor) : Except Failure (String × Cursor) :=
  match cur.rest with
  | [] => flawAt .endInValue cur.place
  | c :: rest => if c = '"' then readString (cur.step c rest) else flawAt .keyNoString cur.nextByte

/-- The next key of an object with the cursor after it, or the cursor after the brace. -/
def nextKey (first : Bool) (cur : Cursor) : Except Failure (Option String × Cursor) :=
  let cur := cur.skipBlanks
  match cur.rest with
  | [] => flawAt .endInObject cur.place
  | c :: rest =>
    if c = '\x7d' then .ok (none, cur.step c rest)
    else if first then (readKey cur).map fun (key, cur) => (some key, cur)
    else if c = ',' then
      let cur := (cur.step c rest).skipBlanks
      match cur.rest with
      | '\x7d' :: _ => flawAt .trailingComma cur.nextByte
      | _ => (readKey cur).map fun (key, cur) => (some key, cur)
    else flawAt .noObjectEnd cur.nextByte

/-- Walk the items of an array after its bracket. The number bounds them. -/
def foldItems {σ : Type} (item : σ → Cursor → Except Failure (σ × Cursor)) :
    Nat → Bool → σ → Cursor → Except Failure (σ × Cursor)
  | 0, _, _, cur => flawAt .endInList cur.place
  | fuel + 1, first, s, cur => do
    match ← nextItem first cur with
    | (false, cur) => .ok (s, cur)
    | (true, cur) =>
      let (s, cur) ← item s cur
      foldItems item fuel false s cur

/-- Walk the entries of an object after its brace. The number bounds them; `entry` gets the key and
the cursor after it. -/
def foldEntries {σ : Type} (entry : σ → String → Cursor → Except Failure (σ × Cursor)) :
    Nat → Bool → σ → Cursor → Except Failure (σ × Cursor)
  | 0, _, _, cur => flawAt .endInObject cur.place
  | fuel + 1, first, s, cur => do
    match ← nextKey first cur with
    | (none, cur) => .ok (s, cur)
    | (some key, cur) =>
      let (s, cur) ← entry s key cur
      foldEntries entry fuel false s cur

/-- `foldItems` over a whole array. -/
def readItems {σ : Type} (item : σ → Cursor → Except Failure (σ × Cursor)) (s : σ) (cur : Cursor) :
    Except Failure (σ × Cursor) :=
  foldItems item (cur.rest.length + 1) true s cur

/-- `foldEntries` over a whole object. -/
def readEntries {σ : Type} (entry : σ → String → Cursor → Except Failure (σ × Cursor)) (s : σ)
    (cur : Cursor) : Except Failure (σ × Cursor) :=
  foldEntries entry (cur.rest.length + 1) true s cur

/-- A scalar, at its first character: anything but an array or an object. -/
def readScalar (cur : Cursor) : Except Failure (Value × Cursor) :=
  match cur.rest with
  | [] => flawAt .endInValue cur.place
  | c :: rest =>
    if c = 'n' then
      (readWord ['u', 'l', 'l'] (cur.step c rest)).map fun cur => (.null, cur)
    else if c = 't' then
      (readWord ['r', 'u', 'e'] (cur.step c rest)).map fun cur => (.bool true, cur)
    else if c = 'f' then
      (readWord ['a', 'l', 's', 'e'] (cur.step c rest)).map fun cur => (.bool false, cur)
    else if c = '-' then
      (readNumber true (cur.step c rest)).map fun (n, cur) => (.number n, cur)
    else if c.isDigit then (readNumber false cur).map fun (n, cur) => (.number n, cur)
    else if c = '"' then (readString (cur.step c rest)).map fun (s, cur) => (.string s, cur)
    else flawAt .noValue cur.nextByte

/-- A value; `depth` more arrays and objects may be opened. -/
def readValue (depth : Nat) (cur : Cursor) : Except Failure (Value × Cursor) :=
  let cur := cur.skipBlanks
  match depth, cur.rest with
  | 0, '[' :: _ => flawAt .tooDeep cur.nextByte
  | 0, '\x7b' :: _ => flawAt .tooDeep cur.nextByte
  | depth + 1, '[' :: rest => do
    let item (items : List Value) (cur : Cursor) : Except Failure (List Value × Cursor) := do
      let (v, cur) ← readValue depth cur
      .ok (v :: items, cur)
    let (items, cur) ← readItems item [] (cur.step '[' rest)
    .ok (.array items.reverse, cur)
  | depth + 1, '\x7b' :: rest => do
    let entry (entries : List (String × Value)) (key : String) (cur : Cursor) :
        Except Failure (List (String × Value) × Cursor) := do
      let cur ← readColon cur
      let (v, cur) ← readValue depth cur
      .ok ((key, v) :: entries, cur)
    let (entries, cur) ← readEntries entry [] (cur.step '\x7b' rest)
    .ok (.object entries.reverse, cur)
  | _, _ => readScalar cur

/-- Nothing but blanks may follow a document. -/
def finish {α : Type} (a : α) (cur : Cursor) : Except Failure α :=
  let cur := cur.skipBlanks
  if cur.rest.isEmpty then .ok a else flawAt .trailingCharacters cur.nextByte

/-- The value of a text, with the entries of its objects as they stand there. -/
def parse (text : String) : Except Failure Value := do
  let (v, cur) ← readValue maxDepth (Cursor.ofText text)
  finish v cur

end Json

end ContractGen
