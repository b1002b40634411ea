/-!
# Parts of a text

`splitBy` cuts a text at separators. Nothing but the separators is lost, so there is one part more
than there are separators.
-/

namespace ContractGen

namespace Text

/-- The parts of a text between the characters that satisfy `p`. -/
def splitBy (p : Char → Bool) : List Char → List (List Char)
  | [] => [[]]
  | c :: rest =>
    if p c then [] :: splitBy p rest
    else
      match splitBy p rest with
      | [] => [[c]]
      | part :: parts => (c :: part) :: parts

end Text

end ContractGen
