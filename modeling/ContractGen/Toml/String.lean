import ContractGen.Toml.Number

/-!
# TOML strings

There are four kinds of strings: in double quotes, where a backslash escapes, or in single quotes,
where every character stands for itself; and either on one line or, in three quotes, on several.
A string on several lines loses a line feed right after its quotes, may have two quotes in a row in
it, and may end in up to two quotes of its own. A backslash at the end of a line joins it with what
comes first after the blanks and line ends that follow.
-/

namespace ContractGen

namespace Toml

/-- What reads the start of a text. -/
abbrev Reader (α : Type) := StateT (List Char) Option α

/-- Whether a control character may not stand in a string or comment; all but the tab may not. -/
def isForbidden (c : Char) : Bool := (c.toNat < 0x20 && c != '\t') || c.toNat == 0x7f

/-- Whether a character is a blank within a line. -/
def isSpace (c : Char) : Bool := c == ' ' || c == '\t'

/-- Skip a line end, if there is one. -/
def skipLineEnd : List Char → List Char
  | '\n' :: rest => rest
  | '\r' :: '\n' :: rest => rest
  | cs => cs

/-- Whether a character is a hexadecimal digit. -/
def isHexDigit (c : Char) : Bool := c.isDigit || ('a' ≤ c.toLower && c.toLower ≤ 'f')

/-- The character that `n` hexadecimal digits at the start give the code of. -/
def readCode (n : Nat) : Reader Char := fun cs =>
  let ds := cs.take n
  if ds.length = n && ds.all isHexDigit then
    let code := ofDigits 16 ds
    if code.isValidChar then some (Char.ofNat code, cs.drop n) else none
  else none

/-- The character of an escape, after its backslash. -/
def readEscape : Reader Char
  | 'b' :: rest => some ('\x08', rest)
  | 't' :: rest => some ('\t', rest)
  | 'n' :: rest => some ('\n', rest)
  | 'f' :: rest => some ('\x0c', rest)
  | 'r' :: rest => some ('\r', rest)
  | 'e' :: rest => some ('\x1b', rest)
  | '"' :: rest => some ('"', rest)
  | '\\' :: rest => some ('\\', rest)
  | 'x' :: rest => readCode 2 rest
  | 'u' :: rest => readCode 4 rest
  | 'U' :: rest => readCode 8 rest
  | _ => none

/-- A string in double quotes on one line, after its quote. The number bounds its characters, and
`seen` has those read so far, from the end. -/
def readBasicFrom : Nat → List Char → Reader String
  | 0, _, _ => none
  | _ + 1, _, [] => none
  | fuel + 1, seen, c :: rest =>
    if c = '"' then some (String.ofList seen.reverse, rest)
    else if c = '\\' then
      match readEscape rest with
      | some (d, rest) => readBasicFrom fuel (d :: seen) rest
      | none => none
    else if isForbidden c then none
    else readBasicFrom fuel (c :: seen) rest

/-- A string in single quotes on one line, after its quote. -/
def readLiteral : Reader String := fun cs =>
  match cs.dropWhile (· != '\'') with
  | [] => none
  | _ :: rest =>
    let content := cs.takeWhile (· != '\'')
    if content.any isForbidden then none else some (String.ofList content, rest)

/-- What ends a string on several lines, after its first quote: the number of its own quotes, up to
two, and the rest. -/
def closing? (quote : Char) (cs : List Char) : Option (Nat × List Char) :=
  let count := (cs.takeWhile (· == quote)).length
  if count < 2 then none
  else
    let own := min (count - 2) 2
    some (own, cs.drop (own + 2))

/-- What follows a backslash at the end of a line, after it: blanks, a line end, and any number of
both. -/
def joinLines? (cs : List Char) : Option (List Char) :=
  let rest := cs.dropWhile isSpace
  match rest with
  | '\n' :: rest => some (skipAll rest.length rest)
  | '\r' :: '\n' :: rest => some (skipAll rest.length rest)
  | _ => none
where
  /-- Skip blanks and line ends. -/
  skipAll : Nat → List Char → List Char
    | 0, cs => cs
    | fuel + 1, cs =>
      match cs with
      | ' ' :: rest => skipAll fuel rest
      | '\t' :: rest => skipAll fuel rest
      | '\n' :: rest => skipAll fuel rest
      | '\r' :: '\n' :: rest => skipAll fuel rest
      | cs => cs

/-- A string on several lines, after its quotes; `escapes` tells whether a backslash escapes. The
number bounds its characters, and `seen` has those read so far, from the end. -/
def readLinesFrom (quote : Char) (escapes : Bool) : Nat → List Char → Reader String
  | 0, _, _ => none
  | _ + 1, _, [] => none
  | fuel + 1, seen, c :: rest =>
    if c = quote then
      match closing? quote rest with
      | some (own, rest) =>
        some (String.ofList (List.replicate own quote ++ seen).reverse, rest)
      | none => readLinesFrom quote escapes fuel (c :: seen) rest
    else if c = '\\' && escapes then
      match joinLines? rest with
      | some rest => readLinesFrom quote escapes fuel seen rest
      | none =>
        match readEscape rest with
        | some (d, rest) => readLinesFrom quote escapes fuel (d :: seen) rest
        | none => none
    else
      match c, rest with
      | '\n', rest => readLinesFrom quote escapes fuel ('\n' :: seen) rest
      | '\r', '\n' :: rest => readLinesFrom quote escapes fuel ('\n' :: '\r' :: seen) rest
      | c, rest =>
        if isForbidden c then none else readLinesFrom quote escapes fuel (c :: seen) rest

/-- A string on one line, if one starts here. -/
def readLine? : List Char → Option (Option (String × List Char))
  | '"' :: rest => some (readBasicFrom (rest.length + 1) [] rest)
  | '\'' :: rest => some (readLiteral rest)
  | _ => none

/-- A string, if one starts here: the inner `none` means that it is malformed. -/
def readString? : List Char → Option (Option (String × List Char))
  | '"' :: '"' :: '"' :: rest =>
    let rest := skipLineEnd rest
    some (readLinesFrom '"' true (rest.length + 1) [] rest)
  | '\'' :: '\'' :: '\'' :: rest =>
    let rest := skipLineEnd rest
    some (readLinesFrom '\'' false (rest.length + 1) [] rest)
  | cs => readLine? cs

end Toml

end ContractGen
