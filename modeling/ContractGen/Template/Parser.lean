import ContractGen.Template
import ContractGen.Text.Blank
import ContractGen.Text.Split

/-!
# Reading templates

The text of a template has tags in it: `{{ path }}` for a value, `{% ... %}` for the start of a
condition, its other part and its end, and for the start and the end of a loop, and `{# ... #}` for
a comment. A hyphen at the inner side of a tag's delimiter removes all blanks of the text on that
side of the tag. A text with any other tag is refused.

`Template.parse` reads a template in three steps: pieces, pieces without the blanks that hyphens
remove, and blocks.
-/

namespace ContractGen

namespace Template

/-- What a tag says. -/
inductive Tag where
  /-- Fill in a value. -/
  | value (path : Path)
  /-- Start a condition, which may be negated. -/
  | ifStart (negated : Bool) (path : Path)
  /-- Start the other part of a condition. -/
  | ifElse
  /-- End a condition. -/
  | ifEnd
  /-- Start a loop. -/
  | loopStart (item : String) (path : Path)
  /-- End a loop. -/
  | loopEnd
  /-- Say something to the reader of the template only. -/
  | comment
deriving DecidableEq, Repr

/-- A piece of the text of a template. -/
inductive Piece where
  /-- Text between tags. -/
  | text (cs : List Char)
  /-- A tag, and whether it removes the blanks before and after it. -/
  | tag (before after : Bool) (tag : Tag)
deriving DecidableEq, Repr

/-! ### Tags -/

/-- The blanks that part the words of a tag. -/
def isTagBlank (c : Char) : Bool := c == ' ' || c == '\t' || c == '\r' || c == '\n'

/-- The words of a tag. -/
def words (cs : List Char) : List (List Char) :=
  (Text.splitBy isTagBlank cs).filter fun word => !word.isEmpty

/-- Whether a character may stand in a name. -/
def isPathChar (c : Char) : Bool := c.isAlphanum || c == '_'

/-- Words with a meaning of their own. -/
def reserved : List String := ["true", "false", "True", "False", "not", "and", "or", "in", "is"]

/-- Whether a word is a name: letters, digits and underscores, with no digit in front, unless it is
reserved. -/
def isName (cs : List Char) : Bool :=
  match cs with
  | [] => false
  | c :: rest =>
    (c.isAlpha || c == '_') && rest.all isPathChar && !reserved.contains (String.ofList cs)

/-- The path of a word: a name, followed by names and indices after dots. -/
def path? (word : List Char) : Option Path :=
  match Text.splitBy (· == '.') word with
  | first :: rest =>
    if isName first && rest.all (fun part => !part.isEmpty && part.all isPathChar) then
      some ((first :: rest).map String.ofList)
    else none
  | [] => none

/-- The tag of the words between braces. -/
def valueTag? : List (List Char) → Option Tag
  | [word] => (path? word).map .value
  | _ => none

/-- The tag of the words between percent signs. -/
def blockTag? (ws : List (List Char)) : Option Tag :=
  match ws.map String.ofList, ws with
  | ["else"], _ => some .ifElse
  | ["endif"], _ => some .ifEnd
  | ["endfor"], _ => some .loopEnd
  | ["if", _], [_, word] => (path? word).map (.ifStart false)
  | ["if", "not", _], [_, _, word] => (path? word).map (.ifStart true)
  | ["for", item, "in", _], [_, name, _, word] =>
    if isName name then (path? word).map (.loopStart item) else none
  | _, _ => none

/-- The text before the first occurrence of `closing` followed by a brace, and what follows. -/
def upTo (closing : Char) : List Char → Option (List Char × List Char)
  | [] => none
  | c :: rest =>
    match c == closing, rest with
    | true, '\x7d' :: after => some ([], after)
    | _, _ => (upTo closing rest).map fun (inner, after) => (c :: inner, after)

/-- A text without the hyphen at its start, and whether it had one. -/
def takeHyphen : List Char → Bool × List Char
  | '-' :: rest => (true, rest)
  | cs => (false, cs)

/-- The piece of a tag, from what stands between its delimiters. -/
def tagPiece? (tag? : List (List Char) → Option Tag) (inner : List Char) : Option Piece :=
  let (before, inner) := takeHyphen inner
  let (after, reversed) := takeHyphen inner.reverse
  (tag? (words reversed.reverse)).map (.tag before after)

/-! ### Pieces -/

/-- The pieces of a text; `seen` is the text since the last tag, from its end. The number bounds
the characters. -/
def scan : Nat → List Char → List Char → Option (List Piece)
  | 0, seen, _ => some [.text seen.reverse]
  | fuel + 1, seen, cs =>
    match cs with
    | [] => some [.text seen.reverse]
    | '\x7b' :: '\x7b' :: rest => do
      let (inner, after) ← upTo '\x7d' rest
      let tag ← tagPiece? valueTag? inner
      return .text seen.reverse :: tag :: (← scan fuel [] after)
    | '\x7b' :: '%' :: rest => do
      let (inner, after) ← upTo '%' rest
      let tag ← tagPiece? blockTag? inner
      return .text seen.reverse :: tag :: (← scan fuel [] after)
    | '\x7b' :: '#' :: rest => do
      let (inner, after) ← upTo '#' rest
      let tag ← tagPiece? (fun _ => some .comment) inner
      return .text seen.reverse :: tag :: (← scan fuel [] after)
    | c :: rest => scan fuel (c :: seen) rest

/-- The pieces without the blanks that hyphens remove; `after` tells whether the tag before them
removes blanks. -/
def trimPieces (after : Bool) : List Piece → List Piece
  | [] => []
  | .text cs :: rest =>
    let cs := if after then Text.trimStart cs else cs
    let before := match rest with
      | .tag before _ _ :: _ => before
      | _ => false
    .text (if before then Text.trimEnd cs else cs) :: trimPieces false rest
  | .tag before after tag :: rest => .tag before after tag :: trimPieces after rest

/-! ### Blocks -/

/-- A condition or loop that is open. -/
inductive Opening where
  /-- The first part of a condition. -/
  | ifPart (negated : Bool) (path : Path)
  /-- The other part of a condition, after its first. -/
  | elsePart (negated : Bool) (path : Path) (first : Template)
  /-- A loop. -/
  | loopBody (item : String) (path : Path)

/-- The blocks read so far: those of the innermost part, from their end, and the open parts around
it with the blocks before them. -/
structure Nesting where
  /-- The blocks of the innermost part, from their end. -/
  blocks : List Block
  /-- The open parts with the blocks before them, from the inside out. -/
  openings : List (Opening × List Block)

namespace Nesting

/-- Add a block. -/
def push (n : Nesting) (block : Block) : Nesting := { n with blocks := block :: n.blocks }

/-- Open a part. -/
def enter (n : Nesting) (opening : Opening) : Nesting :=
  ⟨[], (opening, n.blocks) :: n.openings⟩

/-- A condition of its two parts. -/
def condition (negated : Bool) (path : Path) (first other : Template) : Block :=
  if negated then .cond path other first else .cond path first other

/-- Read a tag. -/
def tag (n : Nesting) : Tag → Option Nesting
  | .comment => some n
  | .value path => some (n.push (.value path))
  | .ifStart negated path => some (n.enter (.ifPart negated path))
  | .loopStart item path => some (n.enter (.loopBody item path))
  | .ifElse =>
    match n.openings with
    | (.ifPart negated path, outer) :: rest =>
      some ⟨[], (.elsePart negated path n.blocks.reverse, outer) :: rest⟩
    | _ => none
  | .ifEnd =>
    match n.openings with
    | (.ifPart negated path, outer) :: rest =>
      some ⟨condition negated path n.blocks.reverse [] :: outer, rest⟩
    | (.elsePart negated path first, outer) :: rest =>
      some ⟨condition negated path first n.blocks.reverse :: outer, rest⟩
    | _ => none
  | .loopEnd =>
    match n.openings with
    | (.loopBody item path, outer) :: rest =>
      some ⟨.loop item path n.blocks.reverse :: outer, rest⟩
    | _ => none

/-- Read a piece. -/
def piece (n : Nesting) : Piece → Option Nesting
  | .text [] => some n
  | .text cs => some (n.push (.text (String.ofList cs)))
  | .tag _ _ tag => n.tag tag

/-- The template, if nothing is open. -/
def finish (n : Nesting) : Option Template :=
  if n.openings.isEmpty then some n.blocks.reverse else none

end Nesting

/-- The template of a text, unless that is malformed. -/
def parse (text : String) : Option Template := do
  let pieces ← scan (text.length + 1) [] text.toList
  let nesting ← (trimPieces false pieces).foldlM Nesting.piece ⟨[], []⟩
  nesting.finish

end Template

end ContractGen
