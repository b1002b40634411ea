import ContractGen.Text.Alphanumeric
import ContractGen.Text.Upper

/-!
# Identifiers

Names of the generated types and members, derived from the free text of a schema.

* `upperCamel` joins the words of a text, each with its first character in upper case;
* `memberName` makes a member name of any text: it always succeeds, with `_` if nothing is left;
* `typeName?` makes a type name of a hint, if the hint has a letter or a number.

A name is a sequence of words. Which characters belong to a word differs between the two: a member
name keeps a few signs until they are spelled out, a type name keeps letters and numbers only.
-/

namespace ContractGen

namespace Identifier

/-- Replace every character that the table lists by its text. -/
def substitute (table : List (Char × String)) (cs : List Char) : List Char :=
  cs.flatMap fun c =>
    match table.lookup c with
    | some text => text.toList
    | none => [c]

/-- What becomes of signs before the words are joined. -/
def signsBefore : List (Char × String) := [
  ('"', ""), ('@', ""), ('?', ""), ('$', ""), ('[', ""), (']', ""), ('(', "_"), (')', ""),
  ('.', "-"), ('=', "-"), ('+', "plus")]

/-- What becomes of signs after the words are joined. -/
def signsAfter : List (Char × String) := [
  ('*', "Star"), (':', "_"), ('-', "_"), ('#', "_"), ('&', "And")]

/-- Signs that stay in a word until `signsAfter` spells them out. -/
def isSpelledOut (c : Char) : Bool := c == '*' || c == ':' || c == '#' || c == '&'

/-- Characters of a word in a member name. -/
def isMemberChar (c : Char) : Bool := Text.isAlphanumeric c || isSpelledOut c

/-- Join the words of a text, the first character of each in upper case. `inWord` holds the
characters of words; `start` says that the next of them starts a word. -/
def joinWords (inWord : Char → Bool) : Bool → List Char → List Char
  | _, [] => []
  | start, c :: cs =>
    if inWord c then (if start then Text.upper c else [c]) ++ joinWords inWord false cs
    else joinWords inWord true cs

/-- Put `_` in front of a text whose first character satisfies `p`. -/
def guardFirst (p : Char → Bool) : List Char → List Char
  | [] => []
  | c :: cs => if p c then '_' :: c :: cs else c :: cs

/-- The words of a text joined in upper camel case; a leading decimal digit gets `_` in front. -/
def upperCamelChars (cs : List Char) : List Char :=
  guardFirst Char.isDigit (joinWords isMemberChar true cs)

/-- `upperCamelChars` on strings. -/
def upperCamel (s : String) : String := String.ofList (upperCamelChars s.toList)

/-- Characters that may stand in a name. -/
def isNameChar (c : Char) : Bool := c == '_' || Text.isAlphanumeric c

/-- The characters of the member name made of a text. -/
def memberChars (cs : List Char) : List Char :=
  let camel := upperCamelChars (substitute signsBefore cs)
  let kept := (substitute signsAfter camel).filter isNameChar
  if kept.isEmpty then ['_'] else guardFirst Text.isNumeric kept

/-- The member name of `raw`, unless `explicit` gives one: that is taken as it is. -/
def memberName (raw : String) (explicit : Option String) : String :=
  match explicit with
  | some name => name
  | none => String.ofList (memberChars raw.toList)

/-- The characters of the type name made of a hint. -/
def typeChars (cs : List Char) : List Char :=
  guardFirst (fun c => !Text.isAlphabetic c)
    ((joinWords Text.isAlphanumeric true cs).filter Text.isAlphanumeric)

/-- The type name made of `hint`, if it has a letter or a number. -/
def typeName? (hint : String) : Option String :=
  match typeChars hint.toList with
  | [] => none
  | cs => some (String.ofList cs)

end Identifier

end ContractGen
