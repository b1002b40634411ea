import ContractGen.Toml.String

/-!
# Reading TOML

`Toml.parse` reads a document line by line. A header opens a table, into which the keys of the
lines below it go; keys before the first header go into the table of the whole document.
-/

namespace ContractGen

namespace Toml

/-- How many arrays and tables may be open at the same place. -/
def maxDepth : Nat := 79

/-! ### Blanks and comments -/

/-- Skip blanks within a line. -/
def skipSpaces (cs : List Char) : List Char := cs.dropWhile isSpace

/-- Skip a comment, if one starts here. -/
def skipComment? : List Char → Option (List Char)
  | '#' :: rest =>
    let isEnd (c : Char) : Bool := c == '\n' || c == '\r'
    if (rest.takeWhile (fun c => !isEnd c)).any isForbidden then none
    else some (rest.dropWhile fun c => !isEnd c)
  | cs => some cs

/-- Skip blanks, comments and line ends. The number bounds the lines. -/
def skipLines? : Nat → List Char → Option (List Char)
  | 0, cs => some cs
  | fuel + 1, cs => do
    let cs ← skipComment? (skipSpaces cs)
    match cs with
    | '\n' :: rest => skipLines? fuel rest
    | '\r' :: '\n' :: rest => skipLines? fuel rest
    | cs => some cs

/-- Skip blanks, comments and line ends. -/
def skipAll? (cs : List Char) : Option (List Char) := skipLines? (cs.length + 1) cs

/-- The end of a line, after blanks and a comment. -/
def endLine? (cs : List Char) : Option (List Char) := do
  match ← skipComment? (skipSpaces cs) with
  | [] => some []
  | '\n' :: rest => some rest
  | '\r' :: '\n' :: rest => some rest
  | _ => none

/-! ### Keys -/

/-- Whether a character may stand in a key without quotes. -/
def isKeyChar (c : Char) : Bool := c.isAlphanum || c == '_' || c == '-'

/-- One part of a key. -/
def readKeyPart (cs : List Char) : Option (String × List Char) :=
  match readLine? cs with
  | some result => result
  | none =>
    let part := cs.takeWhile isKeyChar
    if part.isEmpty then none else some (String.ofList part, cs.dropWhile isKeyChar)

/-- The parts of a key, with blanks around it. The number bounds them. -/
def readKeyParts : Nat → List Char → Option (List String × List Char)
  | 0, _ => none
  | fuel + 1, cs => do
    let (part, cs) ← readKeyPart (skipSpaces cs)
    match skipSpaces cs with
    | '.' :: rest =>
      let (parts, cs) ← readKeyParts fuel rest
      return (part :: parts, cs)
    | cs => return ([part], cs)

/-- The parts of a key, with blanks around it. -/
def readKey (cs : List Char) : Option (List String × List Char) := readKeyParts (cs.length + 1) cs

/-! ### Values -/

/-- Whether a character ends a value without quotes. -/
def endsScalar (c : Char) : Bool :=
  isSpace c || c == '\n' || c == '\r' || c == ',' || c == ']' || c == '\x7d' || c == '#'

/-- The text of a value without quotes, and the rest. A blank may part a date from a time. -/
def takeScalar (cs : List Char) : List Char × List Char :=
  let first := cs.takeWhile (fun c => !endsScalar c)
  match cs.dropWhile (fun c => !endsScalar c) with
  | ' ' :: d :: rest =>
    if isDate first && d.isDigit then
      let second := (d :: rest).takeWhile fun c => !endsScalar c
      (first ++ ' ' :: second, (d :: rest).dropWhile fun c => !endsScalar c)
    else (first, ' ' :: d :: rest)
  | rest => (first, rest)

/-- The items of an array after its bracket, each by `item`. The number bounds them. -/
def readItems (item : List Char → Option (Value × List Char)) :
    Nat → List Char → Option (List Value × List Char)
  | 0, _ => none
  | fuel + 1, cs => do
    match ← skipAll? cs with
    | ']' :: rest => return ([], rest)
    | cs =>
      let (v, cs) ← item cs
      match ← skipAll? cs with
      | ',' :: rest =>
        let (vs, cs) ← readItems item fuel rest
        return (v :: vs, cs)
      | ']' :: rest => return ([v], rest)
      | _ => none

/-- The entries of a table after its brace, added to `table`, each value by `item`. The number
bounds them. -/
def readEntries (item : List Char → Option (Value × List Char)) :
    Nat → Value → List Char → Option (Value × List Char)
  | 0, _, _ => none
  | fuel + 1, table, cs => do
    match ← skipAll? cs with
    | '\x7d' :: rest => return (table, rest)
    | cs =>
      let (keys, cs) ← readKey cs
      match cs with
      | '=' :: rest =>
        let (v, cs) ← item (skipSpaces rest)
        let table ← table.insertKey keys v
        match ← skipAll? cs with
        | ',' :: rest => readEntries item fuel table rest
        | '\x7d' :: rest => return (table, rest)
        | _ => none
      | _ => none

/-- A value; `depth` more arrays and tables may be opened. -/
def readValue : Nat → List Char → Option (Value × List Char)
  | depth, cs =>
    match readString? cs with
    | some result => result.map fun (s, rest) => (.string s, rest)
    | none =>
      match depth, cs with
      | depth + 1, '[' :: rest =>
        (readItems (readValue depth) (rest.length + 1) rest).map fun (items, rest) =>
          (.array items, rest)
      | depth + 1, '\x7b' :: rest =>
        readEntries (readValue depth) (rest.length + 1) (Value.emptyTable .inline) rest
      | _, cs =>
        let (first, rest) := takeScalar cs
        (scalar? first).map fun v => (v, rest)

/-! ### Documents -/

/-- The document read so far, and the keys of the last header. -/
structure Document where
  /-- The table of the whole document. -/
  root : Value
  /-- The keys of the last header. -/
  header : List String

namespace Document

/-- Open the table that a header names, by `openLast` for its last key. -/
def openHeader (d : Document) (keys : List String)
    (openLast : String → List (String × Value) → Option (List (String × Value))) :
    Option Document :=
  keys.getLast?.bind fun last =>
    (Value.alterAt (openLast last) keys.dropLast d.root).map fun root => ⟨root, keys⟩

/-- Add what a key says to the table of the last header. -/
def insert (d : Document) (keys : List String) (v : Value) : Option Document :=
  let change (entries : List (String × Value)) : Option (List (String × Value)) :=
    match Value.insertKey (.table .header entries) keys v with
    | some (.table _ entries) => some entries
    | _ => none
  (Value.alterAt change d.header d.root).map fun root => { d with root }

end Document

/-- A line with something in it, at its first character. -/
def readExpression (d : Document) (cs : List Char) : Option (Document × List Char) :=
  match cs with
  | '[' :: '[' :: rest => do
    let (keys, cs) ← readKey rest
    match cs with
    | ']' :: ']' :: rest => return (← d.openHeader keys Value.openItem, ← endLine? rest)
    | _ => none
  | '[' :: rest => do
    let (keys, cs) ← readKey rest
    match cs with
    | ']' :: rest => return (← d.openHeader keys Value.openTable, ← endLine? rest)
    | _ => none
  | cs => do
    let (keys, cs) ← readKey cs
    match cs with
    | '=' :: rest =>
      let (v, cs) ← readValue maxDepth (skipSpaces rest)
      return (← d.insert keys v, ← endLine? cs)
    | _ => none

/-- The lines of a document. The number bounds them. -/
def readLines : Nat → Document → List Char → Option Document
  | 0, _, _ => none
  | fuel + 1, d, cs => do
    match ← skipAll? cs with
    | [] => return d
    | cs =>
      let (d, cs) ← readExpression d cs
      readLines fuel d cs

/-- The table of a document, unless that is malformed. A byte order mark may come first. -/
def parse (text : String) : Option Value :=
  let cs := match text.toList with
    | '\ufeff' :: rest => rest
    | cs => cs
  (readLines (cs.length + 1) ⟨Value.emptyTable .header, []⟩ cs).map Document.root

end Toml

end ContractGen
