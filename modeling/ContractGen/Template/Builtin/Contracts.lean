import ContractGen.Template

/-!
# Templates of contracts

How a class, an enumeration and a union with a name are written. Each starts with a line feed and
ends with one.
-/

namespace ContractGen

namespace Template

namespace Builtin

/-- The comment with the lines at `path`, if there are any; `margin` starts each of its lines. -/
def summary (margin : String) (path : Path) : Block :=
  .cond path [
    .text ("\n" ++ margin ++ "/// <summary>"),
    .loop "line" path [.text ("\n" ++ margin ++ "/// "), .value ["line"]],
    .text ("\n" ++ margin ++ "/// </summary>")] []

/-- The attributes that tell the subtypes of a class apart. -/
def hierarchyAttributes : Block :=
  .cond ["discriminator"] [
    .text "\n[Newtonsoft.Json.JsonConverter(typeof(JsonInheritanceConverter), ",
    .value ["discriminator", "property_name"],
    .text ")]",
    .loop "mapping" ["discriminator", "mappings"] [
      .text "\n[JsonInheritanceAttribute(",
      .value ["mapping", "value"],
      .text ", typeof(",
      .value ["mapping", "type_name"],
      .text "))]"]] []

/-- Whether a member must be present and may be null, as its attribute says it. -/
def presence : Block :=
  .cond ["property", "required"] [
    .cond ["property", "nullable"]
      [.text "Newtonsoft.Json.Required.AllowNull"]
      [.text "Newtonsoft.Json.Required.Always"]]
    [.text "Newtonsoft.Json.Required.Default"]

/-- A member of a class. -/
def member : Template := [
  summary "    " ["property", "description"],
  .text "\n    [Newtonsoft.Json.JsonProperty(",
  .value ["property", "json_name"],
  .text ", Required = ",
  presence,
  .text ", NullValueHandling = Newtonsoft.Json.NullValueHandling.Ignore)]",
  .cond ["property", "date_format"]
    [.text "\n    [Newtonsoft.Json.JsonConverter(typeof(DateFormatConverter))]"] [],
  .text "\n    public ",
  .value ["property", "type_name"],
  .text " ",
  .value ["property", "name"],
  .text " \x7b get; set; \x7d\n"]

/-- A class. -/
def classTemplate : Template := [
  summary "" ["description"],
  hierarchyAttributes,
  .text "\npublic ",
  .cond ["is_abstract"] [.text "abstract "] [],
  .text "partial class ",
  .value ["type_name"],
  .cond ["base_name"] [.text " : ", .value ["base_name"]] [],
  .text "\n\x7b",
  .loop "property" ["properties"] member,
  .text "\x7d\n"]

/-- A literal of an enumeration. -/
def enumMember : Template := [
  .cond ["is_string_enum"] [
    .text "\n    [System.Runtime.Serialization.EnumMember(Value = ",
    .value ["member", "value"],
    .text ")]"] [],
  .text "\n    ",
  .value ["member", "name"],
  .text " = ",
  .value ["member", "number"],
  .text ",\n"]

/-- The attribute of an enumeration whose literals are texts. -/
def textConverter : String :=
  "\n[Newtonsoft.Json.JsonConverter(typeof(Newtonsoft.Json.Converters.StringEnumConverter))]"

/-- An enumeration. -/
def enumTemplate : Template := [
  summary "" ["description"],
  .cond ["is_string_enum"] [.text textConverter] [],
  .text "\npublic enum ",
  .value ["type_name"],
  .text "\n\x7b",
  .loop "member" ["members"] enumMember,
  .text "\x7d\n"]

/-- A case of a union. -/
def unionCase : Template := [
  .text "\n    public bool Is",
  .value ["variant", "case_name"],
  .text " => Index == ",
  .value ["loop", "index0"],
  .text ";\n\n    public ",
  .value ["variant", "type_name"],
  .text " As",
  .value ["variant", "case_name"],
  .text " => GetValue<",
  .value ["variant", "type_name"],
  .text ">(",
  .value ["loop", "index0"],
  .text ");\n\n    public static implicit operator ",
  .value ["type_name"],
  .text "(",
  .value ["variant", "type_name"],
  .text " value) => new ",
  .value ["type_name"],
  .text "(",
  .value ["loop", "index0"],
  .text ", value);\n"]

/-- A union with a name. -/
def namedUnionTemplate : Template := [
  summary "" ["description"],
  .text "\n[Newtonsoft.Json.JsonConverter(typeof(OneOfConverter))]\npublic partial class ",
  .value ["type_name"],
  .text " : OneOfBase<",
  .value ["type_arguments"],
  .text ">\n\x7b\n    private ",
  .value ["type_name"],
  .text "(int index, object value) : base(index, value)\n    \x7b\n    \x7d\n",
  .loop "variant" ["variants"] unionCase,
  .text "\x7d\n"]

end Builtin

end Template

end ContractGen
