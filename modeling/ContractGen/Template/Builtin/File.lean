import ContractGen.Template

/-!
# Template of a file

A file starts with a comment that says how it came to be, and with a directive on nullable
annotations; then come the namespace, if there is one, and the types.
-/

namespace ContractGen

namespace Template

namespace Builtin

/-- The comment at the start of a file, up to the setting of the directive. -/
def fileHead : String :=
  codeLines [
    "//----------------------",
    "// <auto-generated>",
    "//     Generated by schemaforge. Changes to this file will be lost on regeneration.",
    "// </auto-generated>",
    "//----------------------",
    ""] ++ "#nullable "

/-- A file. -/
def fileTemplate : Template := [
  .text fileHead,
  .cond ["nullable_annotations"] [.text "enable"] [.text "disable"],
  .cond ["namespace"] [.text "\n\nnamespace ", .value ["namespace"], .text ";"] [],
  .text "\n\n",
  .value ["types_code"],
  .text "\n"]

end Builtin

end Template

end ContractGen
