/-!
# Settings

What can be chosen about the generated code, apart from its templates.
-/

namespace ContractGen

/-- The format of plain dates, unless one is chosen. -/
def Settings.defaultDateFormat : String := "yyyy-MM-dd"

/-- The choices about generated code. -/
structure Settings where
  /-- The namespace that types are declared in. -/
  scope : Option String := none
  /-- The utilities that are not generated, because they are declared elsewhere. -/
  excluded : List String := []
  /-- Whether the code has nullable annotations. -/
  nullableAnnotations : Bool := false
  /-- A name for the root, if it has none. -/
  rootTypeName : Option String := none
  /-- The format of plain dates. -/
  dateFormat : String := Settings.defaultDateFormat
deriving DecidableEq, Repr

namespace Settings

/-- Whether a utility is not generated. -/
def isExcluded (s : Settings) (name : String) : Bool := s.excluded.contains name

end Settings

end ContractGen
