import ContractGen.Contract
import ContractGen.Identifier.Suffix

/-!
# Distinct member names

In a class no two members may have the same name, and none may have the name of the class. A member
that would gets the smallest number from one on after its name that makes it differ from the class,
from all declared names and from the names given before.
-/

namespace ContractGen

namespace Contract

/-- Distinct names for those of `names`, which follow the names `used`; `declared` are all names
that were declared. -/
def distinctAfter (owner : String) (declared used : List String) : List String → List String
  | [] => []
  | name :: rest =>
    let settled :=
      if name = owner || used.contains name then
        Identifier.withFreeSuffix name 1 (owner :: used ++ declared)
      else name
    settled :: distinctAfter owner declared (settled :: used) rest

/-- Distinct names for the members of a type, none of them its own. -/
def distinctNames (owner : String) (names : List String) : List String :=
  distinctAfter owner names [] names

/-- Members with distinct names. -/
def distinctMembers (owner : String) (members : List Member) : List Member :=
  members.zipWith (fun m name => { m with name })
    (distinctNames owner (members.map Member.name))

end Contract

end ContractGen
