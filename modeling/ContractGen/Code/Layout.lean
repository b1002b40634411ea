import ContractGen.Text.Blank
import ContractGen.Text.Lines

/-!
# Blank lines in code

`tidy` gives code its final layout. Blanks at the end of lines go. Of the blank lines between two
other lines one is left, and none where a block opens before them or closes after them; there is no
blank line at the start or at the end. The last line is closed by a line feed.
-/

namespace ContractGen

namespace Layout

/-- Whether a blank line after `last` is dropped: there is no line before it, or that is blank or
opens a block. -/
def opensBefore : Option (List Char) → Bool
  | none => true
  | some last => last.isEmpty || last.getLast? == some '\x7b'

/-- Whether a blank line before `rest` is dropped: no line of it has text, or the first that has
closes a block. -/
def closesAfter (rest : List (List Char)) : Bool :=
  match rest.find? fun line => !line.isEmpty with
  | none => true
  | some next => (Text.trimStart next).head? == some '\x7d'

/-- The lines that stay, of lines that follow the line `last` and have no blanks at the end. -/
def keep (last : Option (List Char)) : List (List Char) → List (List Char)
  | [] => []
  | line :: rest =>
    if line.isEmpty && (opensBefore last || closesAfter rest) then keep last rest
    else line :: keep (some line) rest

/-- The lines of the final layout. -/
def tidyLines (cs : List Char) : List (List Char) := keep none ((Text.lines cs).map Text.trimEnd)

end Layout

/-- Code in its final layout. -/
def tidy (code : String) : String :=
  String.ofList (Text.joinWith ['\n'] (Layout.tidyLines code.toList) ++ ['\n'])

end ContractGen
