import ContractGen.Template

/-!
# Templates of utilities

The converters and the attribute that contracts may need. They are given as the lines of their
code; only the converter of plain dates has something to be filled in.
-/

namespace ContractGen

namespace Template

namespace Builtin

/-- The converter of plain dates. -/
def dateFormatConverterTemplate : Template := [
  .text (codeLines [
    "internal class DateFormatConverter : Newtonsoft.Json.Converters.IsoDateTimeConverter",
    "\x7b",
    "    public DateFormatConverter()",
    "    \x7b"] ++ "        DateTimeFormat = "),
  .value ["date_format"],
  .text (";\n" ++ codeLines [
    "    \x7d",
    "\x7d"])]

/-- The code of the attribute that names a subtype. -/
def inheritanceAttributeLines : List String := [
  "[System.AttributeUsage(System.AttributeTargets.Class | System.AttributeTargets.Interface, " ++
    "AllowMultiple = true)]",
  "internal class JsonInheritanceAttribute : System.Attribute",
  "\x7b",
  "    public JsonInheritanceAttribute(string key, System.Type type)",
  "    \x7b",
  "        Key = key;",
  "        Type = type;",
  "    \x7d",
  "",
  "    public string Key \x7b get; \x7d",
  "",
  "    public System.Type Type \x7b get; \x7d",
  "\x7d"]

/-- The code of the converter of classes whose subtypes are told apart by a property. -/
def inheritanceConverterLines : List String := [
  "public class JsonInheritanceConverter : Newtonsoft.Json.JsonConverter",
  "\x7b",
  "    internal static readonly string DefaultDiscriminatorName = \"discriminator\";",
  "",
  "    private readonly string _discriminatorName;",
  "",
  "    [System.ThreadStatic]",
  "    private static bool _isReading;",
  "",
  "    [System.ThreadStatic]",
  "    private static bool _isWriting;",
  "",
  "    public JsonInheritanceConverter()",
  "    \x7b",
  "        _discriminatorName = DefaultDiscriminatorName;",
  "    \x7d",
  "",
  "    public JsonInheritanceConverter(string discriminatorName)",
  "    \x7b",
  "        _discriminatorName = discriminatorName;",
  "    \x7d",
  "",
  "    public string DiscriminatorName => _discriminatorName;",
  "",
  "    public override bool CanWrite => !_isWriting;",
  "",
  "    public override bool CanRead => !_isReading;",
  "",
  "    public override bool CanConvert(System.Type objectType)",
  "    \x7b",
  "        return true;",
  "    \x7d",
  "",
  "    public override void WriteJson(Newtonsoft.Json.JsonWriter writer, object value, " ++
    "Newtonsoft.Json.JsonSerializer serializer)",
  "    \x7b",
  "        try",
  "        \x7b",
  "            _isWriting = true;",
  "",
  "            var jObject = Newtonsoft.Json.Linq.JObject.FromObject(value, serializer);",
  "            jObject[_discriminatorName] = GetDiscriminatorValue(value.GetType());",
  "            writer.WriteToken(jObject.CreateReader());",
  "        \x7d",
  "        finally",
  "        \x7b",
  "            _isWriting = false;",
  "        \x7d",
  "    \x7d",
  "",
  "    public override object ReadJson(Newtonsoft.Json.JsonReader reader, System.Type " ++
    "objectType, object existingValue, Newtonsoft.Json.JsonSerializer serializer)",
  "    \x7b",
  "        var jObject = serializer.Deserialize<Newtonsoft.Json.Linq.JObject>(reader);",
  "        if (jObject == null)",
  "        \x7b",
  "            return null;",
  "        \x7d",
  "",
  "        var discriminatorValue = jObject.GetValue(_discriminatorName)?.Value<string>();",
  "        var subtype = GetObjectSubtype(objectType, discriminatorValue);",
  "",
  "        try",
  "        \x7b",
  "            _isReading = true;",
  "            return serializer.Deserialize(jObject.CreateReader(), subtype);",
  "        \x7d",
  "        finally",
  "        \x7b",
  "            _isReading = false;",
  "        \x7d",
  "    \x7d",
  "",
  "    public virtual string GetDiscriminatorValue(System.Type type)",
  "    \x7b",
  "        for (var current = type; current != null; current = current.BaseType)",
  "        \x7b",
  "            foreach (var attribute in " ++
    "System.Reflection.CustomAttributeExtensions.GetCustomAttributes<JsonInheritanceAttribute>(" ++
    "System.Reflection.IntrospectionExtensions.GetTypeInfo(current), false))",
  "            \x7b",
  "                if (attribute.Type == type)",
  "                \x7b",
  "                    return attribute.Key;",
  "                \x7d",
  "            \x7d",
  "        \x7d",
  "",
  "        return type.Name;",
  "    \x7d",
  "",
  "    protected virtual System.Type GetObjectSubtype(System.Type objectType, string " ++
    "discriminatorValue)",
  "    \x7b",
  "        foreach (var attribute in " ++
    "System.Reflection.CustomAttributeExtensions.GetCustomAttributes<JsonInheritanceAttribute>(" ++
    "System.Reflection.IntrospectionExtensions.GetTypeInfo(objectType), true))",
  "        \x7b",
  "            if (attribute.Key == discriminatorValue)",
  "            \x7b",
  "                return attribute.Type;",
  "            \x7d",
  "        \x7d",
  "",
  "        return objectType;",
  "    \x7d",
  "\x7d"]

/-- The code of the converter of unions. -/
def oneOfConverterLines : List String := [
  "internal class OneOfConverter : Newtonsoft.Json.JsonConverter",
  "\x7b",
  "    public override bool CanConvert(System.Type objectType)",
  "    \x7b",
  "        return FindUnionBase(objectType) != null;",
  "    \x7d",
  "",
  "    public override void WriteJson(Newtonsoft.Json.JsonWriter writer, object value, " ++
    "Newtonsoft.Json.JsonSerializer serializer)",
  "    \x7b",
  "        var inner = value?.GetType().GetProperty(\"Value\")?.GetValue(value);",
  "        serializer.Serialize(writer, inner);",
  "    \x7d",
  "",
  "    public override object ReadJson(Newtonsoft.Json.JsonReader reader, System.Type " ++
    "objectType, object existingValue, Newtonsoft.Json.JsonSerializer serializer)",
  "    \x7b",
  "        if (reader.TokenType == Newtonsoft.Json.JsonToken.Null)",
  "        \x7b",
  "            return null;",
  "        \x7d",
  "",
  "        var token = Newtonsoft.Json.Linq.JToken.ReadFrom(reader);",
  "        var caseTypes = FindUnionBase(objectType).GetGenericArguments();",
  "        for (var index = 0; index < caseTypes.Length; index++)",
  "        \x7b",
  "            try",
  "            \x7b",
  "                var value = token.ToObject(caseTypes[index], serializer);",
  "                return System.Activator.CreateInstance(",
  "                    objectType,",
  "                    System.Reflection.BindingFlags.Instance | " ++
    "System.Reflection.BindingFlags.NonPublic | System.Reflection.BindingFlags.Public,",
  "                    null,",
  "                    new object[] \x7b index, value \x7d,",
  "                    null);",
  "            \x7d",
  "            catch (Newtonsoft.Json.JsonException)",
  "            \x7b",
  "            \x7d",
  "        \x7d",
  "",
  "        throw new Newtonsoft.Json.JsonSerializationException(\"Could not match JSON to any " ++
    "case of \" + objectType.Name + \".\");",
  "    \x7d",
  "",
  "    private static System.Type FindUnionBase(System.Type type)",
  "    \x7b",
  "        for (var current = type; current != null; current = current.BaseType)",
  "        \x7b",
  "            if (current.IsGenericType && " ++
    "current.GetGenericTypeDefinition().Name.StartsWith(\"OneOfBase`\"))",
  "            \x7b",
  "                return current;",
  "            \x7d",
  "        \x7d",
  "",
  "        return null;",
  "    \x7d",
  "\x7d"]

/-- The attribute that names a subtype. -/
def inheritanceAttributeTemplate : Template := [.text (codeLines inheritanceAttributeLines)]

/-- The converter of classes whose subtypes are told apart by a property. -/
def inheritanceConverterTemplate : Template := [.text (codeLines inheritanceConverterLines)]

/-- The converter of unions. -/
def oneOfConverterTemplate : Template := [.text (codeLines oneOfConverterLines)]

end Builtin

end Template

end ContractGen
