import ContractGen.Contract
import ContractGen.Identifier
import ContractGen.Identifier.Suffix
import ContractGen.Json.Writer

/-!
# The literals of an enumeration

An enumeration is numeric if it has a literal other than null and all of those are integers of 64
bits. A number that stands twice is one literal then. Otherwise every literal counts, and they are
numbered in order.
-/

namespace ContractGen

namespace Contract

open Json (Value)

/-- The literals that count. -/
def present (values : List Value) : List Value := values.filter fun v => !v.isNull

/-- The numbers of a numeric enumeration, each once; `none` if it is not numeric. -/
def numbers? (values : List Value) : Option (List Int) :=
  match (present values).mapM Value.int64? with
  | some [] => none
  | some ns => some ns.eraseDups
  | none => none

/-- The name that a number suggests. -/
def numberHint (n : Int) : String := if n < 0 then s!"Minus{n.natAbs}" else s!"{n}"

/-- The text of a literal: a string as it is, anything else as JSON. -/
def literalText (v : Value) : String := v.string?.getD v.text

/-- Named literals from those with a hint each; the names `used` are taken. If a name is taken,
`mark` and a number from two on follow it. -/
def nameLiterals (mark : String) (used : List String) :
    List (String × String × Int) → List Literal
  | [] => []
  | (hint, text, number) :: rest =>
    let plain := Identifier.memberName hint none
    let name := Identifier.freeName plain (plain ++ mark) 2 used
    ⟨name, text, number⟩ :: nameLiterals mark (name :: used) rest

/-- The literals of a numeric enumeration. A digit after the name of a number would make it read as
another number, so a mark stands between them. -/
def numericLiterals (typeName : String) (ns : List Int) : List Literal :=
  nameLiterals "_" [typeName] (ns.map fun n => (numberHint n, s!"{n}", n))

/-- The literals of an enumeration of texts. -/
def textLiterals (typeName : String) (values : List Value) : List Literal :=
  nameLiterals "" [typeName]
    ((present values).mapIdx fun i v => (literalText v, literalText v, (i : Int)))

/-- The enumeration of some values. -/
def Enumeration.ofValues (typeName : String) (doc : List String) (values : List Value) :
    Enumeration :=
  match numbers? values with
  | some ns => ⟨doc, false, numericLiterals typeName ns⟩
  | none => ⟨doc, true, textLiterals typeName values⟩

end Contract

end ContractGen
