import ContractGen.Template

/-!
# Templates of support types for unions

For every arity in use there is a base type of unions, and for every arity of a union declared in
place there is the type of such unions.
-/

namespace ContractGen

namespace Template

namespace Builtin

/-- The conversion to a union from the type of a case. -/
def conversion : Template := [
  .text "\n    public static implicit operator OneOf<",
  .value ["type_parameters"],
  .text ">(",
  .value ["parameter"],
  .text " value) => new OneOf<",
  .value ["type_parameters"],
  .text ">(",
  .value ["loop", "index0"],
  .text ", value);\n"]

/-- The type of unions declared in place. -/
def valueUnionTemplate : Template := [
  .text "public sealed class OneOf<",
  .value ["type_parameters"],
  .text "> : OneOfBase<",
  .value ["type_parameters"],
  .text (">\n" ++ codeLines [
    "\x7b",
    "    private OneOf(int index, object value) : base(index, value)",
    "    \x7b",
    "    \x7d"]),
  .loop "parameter" ["parameters"] conversion,
  .text "\x7d\n"]

/-- The lines of the base type of unions, from its brace to the method that takes a function for
each case. -/
def unionMembers : List String := [
  "\x7b",
  "    protected OneOfBase(int index, object value)",
  "    \x7b",
  "        Index = index;",
  "        Value = value;",
  "    \x7d",
  "",
  "    [Newtonsoft.Json.JsonIgnore]",
  "    public int Index \x7b get; \x7d",
  "",
  "    [Newtonsoft.Json.JsonIgnore]",
  "    public object Value \x7b get; \x7d",
  "",
  "    protected T GetValue<T>(int index)",
  "    \x7b",
  "        if (Index != index)",
  "        \x7b",
  "            throw new System.InvalidOperationException(\"The union holds case \" + Index + " ++
    "\", not case \" + index + \".\");",
  "        \x7d",
  "",
  "        return (T)Value;",
  "    \x7d",
  ""]

/-- The parameter with the function for a case. -/
def caseFunction : Template := [
  .text "System.Func<",
  .value ["parameter"],
  .text ", TResult> f",
  .value ["loop", "index0"],
  .cond ["loop", "last"] [] [.text ", "]]

/-- The application of the function for a case. -/
def caseApplication : Template := [
  .text "\n            case ",
  .value ["loop", "index0"],
  .text ": return f",
  .value ["loop", "index0"],
  .text "((",
  .value ["parameter"],
  .text ")Value);"]

/-- What follows the applications. -/
def unionEnd : List String := [
  "",
  "            default: throw new System.InvalidOperationException(\"Unknown union case \" + " ++
    "Index + \".\");",
  "        \x7d",
  "    \x7d",
  "\x7d"]

/-- The base type of unions. -/
def abstractUnionTemplate : Template := [
  .text ("[Newtonsoft.Json.JsonConverter(typeof(OneOfConverter))]\n" ++
    "public abstract class OneOfBase<"),
  .value ["type_parameters"],
  .text (">\n" ++ codeLines unionMembers ++ "    public TResult Match<TResult>("),
  .loop "parameter" ["parameters"] caseFunction,
  .text ")\n    \x7b\n        switch (Index)\n        \x7b",
  .loop "parameter" ["parameters"] caseApplication,
  .text (codeLines unionEnd)]

end Builtin

end Template

end ContractGen
