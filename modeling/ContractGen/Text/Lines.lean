/-!
# Lines of a text

A line ends at a line feed, together with one carriage return right before it; a carriage return
anywhere else is an ordinary character. The last line needs no end, and a text that ends with a
line feed has no empty line after it.
-/

namespace ContractGen

namespace Text

/-- The lines of a text, without their ends. -/
def lines : List Char → List (List Char)
  | [] => []
  | '\n' :: rest => [] :: lines rest
  | '\r' :: '\n' :: rest => [] :: lines rest
  | c :: rest =>
    match lines rest with
    | [] => [[c]]
    | line :: more => (c :: line) :: more

/-- Texts joined with `separator` between neighbours. -/
def joinWith (separator : List Char) : List (List Char) → List Char
  | [] => []
  | [t] => t
  | t :: ts => t ++ separator ++ joinWith separator ts

end Text

end ContractGen
