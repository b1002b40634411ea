/-!
# Target languages

Contracts are written in C#, the only `Language` there is so far.
-/

namespace ContractGen

/-- A language contracts can be written in. -/
inductive Language where
  /-- C#. -/
  | csharp
deriving DecidableEq, Repr

namespace Language

/-- The language as messages name it. -/
def displayName : Language → String
  | .csharp => "C#"

/-- The folder of the language among the templates. -/
def folder : Language → String
  | .csharp => "csharp"

/-- The language of a name; ASCII letters may be of either case. -/
def ofName? (name : String) : Option Language :=
  let lower := String.ofList (name.toList.map Char.toLower)
  if lower = "csharp" || lower = "cs" || lower = "c#" then some .csharp else none

end Language

end ContractGen
