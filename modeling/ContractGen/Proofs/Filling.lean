import ContractGen.Model
import ContractGen.Proofs.Outcomes
import ContractGen.Template.Library

/-!
# Filled templates

What the built-in templates of files and contracts give for a model, written out: `Model.File.text`,
`Model.Class.text`, `Model.Enum.text` and `Model.NamedUnion.text`. Filling them never fails, since
models have a value wherever these templates look for one.

A template is filled block by block (`renderBlocks_of_forall₂`). What a block gives depends on the
value that its path leads to, which is said once for values, conditions and loops
(`renderBlock_value`, `renderBlock_cond`, `renderBlock_loop`).
-/

namespace ContractGen

open Json (Value)

namespace Template

variable {model : Value} {scopes : List Scope} {path : Path} {v : Value}
  {blocks present absent body : List Block} {s t : String}

/-! ### Blocks -/

theorem renderBlocks_of_forall₂ {texts : List String}
    (h : List.Forall₂ (fun block text => renderBlock model scopes block = .ok text) blocks texts) :
    renderBlocks model scopes blocks = .ok (String.join texts) := by
  induction h with
  | nil => rfl
  | cons hfirst _ ih =>
    rw [renderBlocks, hfirst]
    simp only [bind, Except.bind, ih, pure, Except.pure, String.join_cons]

theorem renderBlocks_singleton {block : Block} (h : renderBlock model scopes block = .ok s) :
    renderBlocks model scopes [block] = .ok s := by
  rw [renderBlocks_of_forall₂ (.cons h .nil), String.join_cons, String.join_nil,
    String.append_empty]

theorem renderBlock_text (model : Value) (scopes : List Scope) (s : String) :
    renderBlock model scopes (.text s) = .ok s := by
  rw [renderBlock]

theorem renderBlock_value (h : lookup scopes model path = some v) :
    renderBlock model scopes (.value path) = .ok (valueText v) := by
  simp only [renderBlock, h]

theorem renderBlock_string (h : lookup scopes model path = some (.string s)) :
    renderBlock model scopes (.value path) = .ok s :=
  renderBlock_value h

theorem renderBlock_cond (h : lookup scopes model path = some v)
    (hpresent : isTrue v = true → renderBlocks model scopes present = .ok s)
    (habsent : isTrue v = false → renderBlocks model scopes absent = .ok t) :
    renderBlock model scopes (.cond path present absent) = .ok (if isTrue v then s else t) := by
  rw [renderBlock, h, Option.map_some, Option.getD_some]
  split_ifs with hv
  · exact hpresent hv
  · exact habsent (by simpa using hv)

/-- A condition without another part. -/
theorem renderBlock_when (h : lookup scopes model path = some v)
    (hpresent : isTrue v = true → renderBlocks model scopes present = .ok s) :
    renderBlock model scopes (.cond path present []) = .ok (if isTrue v then s else "") :=
  renderBlock_cond h hpresent fun _ => rfl

/-- What a text that may be missing adds. An empty one counts as missing. -/
def clause (text : String → String) : Option String → String
  | some s => if s.isEmpty then "" else text s
  | none => ""

theorem renderBlock_clause {o : Option String} {text : String → String}
    (h : lookup scopes model path = some (.ofOption o))
    (hpresent : ∀ s, lookup scopes model path = some (.string s) →
      renderBlocks model scopes present = .ok (text s)) :
    renderBlock model scopes (.cond path present []) = .ok (clause text o) := by
  cases o with
  | none =>
    rw [renderBlock, h]
    rfl
  | some s =>
    rw [renderBlock_when h fun _ => hpresent s h, clause]
    cases hs : s.isEmpty <;> simp [Template.isTrue, Value.ofOption, hs]

/-- A loop gives the texts of its items in a row. -/
theorem renderBlock_loop {α : Type} {as : List α} {toValue : α → Value} {name : String}
    {text : Nat → α → String} (h : lookup scopes model path = some (.array (as.map toValue)))
    (hbody : ∀ i n a, renderBlocks model (⟨name, toValue a, i, n⟩ :: scopes) body =
      .ok (text i a)) :
    renderBlock model scopes (.loop name path body) = .ok (String.join (as.mapIdx text)) := by
  have hparts : (scopesOf name (as.map toValue)).mapM (fun scope =>
      renderBlocks model (scope :: scopes) body) = .ok (as.mapIdx text) := by
    refine mapM_eq_ok_iff.2 (List.forall₂_iff_get.2 ⟨by simp [scopesOf], fun i hi hi' => ?_⟩)
    simp only [scopesOf, List.get_eq_getElem, List.getElem_mapIdx, List.getElem_map]
    exact hbody i _ _
  simp only [renderBlock, h, items, bind, Except.bind, hparts, pure, Except.pure]

theorem renderBlock_each {α : Type} {as : List α} {toValue : α → Value} {name : String}
    {text : α → String} (h : lookup scopes model path = some (.array (as.map toValue)))
    (hbody : ∀ i n a, renderBlocks model (⟨name, toValue a, i, n⟩ :: scopes) body = .ok (text a)) :
    renderBlock model scopes (.loop name path body) = .ok (String.join (as.map text)) := by
  have hmap : as.mapIdx (fun _ a => text a) = as.map text := List.ext_getElem (by simp) (by simp)
  rw [← hmap]
  exact renderBlock_loop h hbody

theorem Library.render_of_lookup {library : Library} {name : String} {template : Template}
    {entries : List (String × Value)} (h : library.lookup name = some template)
    (hfilled : template.render (.object entries) = .ok s) :
    library.render name (.object entries) = .ok s := by
  simp only [Library.render, h, hfilled]

end Template

namespace Model

open Template

/-! ### Files -/

/-- What a file has before its types. -/
def File.head (f : File) : String :=
  String.join [
    Builtin.fileHead,
    if f.nullableAnnotations then "enable" else "disable",
    clause (fun name => String.join ["\n\nnamespace ", name, ";"]) f.scope]

/-- The text of a file. -/
def File.text (f : File) : String := f.head ++ "\n\n" ++ f.typesCode ++ "\n"

theorem render_file (f : File) : Builtin.fileTemplate.render f.toValue = .ok f.text := by
  have hannotations : renderBlock f.toValue [] (.cond ["nullable_annotations"]
      [.text "enable"] [.text "disable"]) =
        .ok (if f.nullableAnnotations then "enable" else "disable") :=
    renderBlock_cond (v := .bool f.nullableAnnotations) rfl (fun _ => rfl) fun _ => rfl
  have hscope : renderBlock f.toValue [] (.cond ["namespace"]
      [.text "\n\nnamespace ", .value ["namespace"], .text ";"] []) =
        .ok (clause (fun name => String.join ["\n\nnamespace ", name, ";"]) f.scope) := by
    refine renderBlock_clause rfl fun name hname => renderBlocks_of_forall₂ ?_
    simp only [List.forall₂_cons, renderBlock_text, renderBlock_string hname, List.Forall₂.nil,
      and_self]
  have htypes : renderBlock f.toValue [] (.value ["types_code"]) = .ok f.typesCode :=
    renderBlock_string rfl
  have htext : f.text = String.join [Builtin.fileHead,
      if f.nullableAnnotations then "enable" else "disable",
      clause (fun name => String.join ["\n\nnamespace ", name, ";"]) f.scope, "\n\n", f.typesCode,
      "\n"] := by
    simp [File.text, File.head, String.append_assoc]
  rw [htext]
  refine renderBlocks_of_forall₂ ?_
  simp only [Builtin.fileTemplate, List.forall₂_cons, renderBlock_text, hannotations, hscope,
    htypes, List.Forall₂.nil, and_self]

/-! ### Comments -/

/-- A comment with some lines, if there are any; `margin` starts each of its lines. -/
def summaryText (margin : String) (lines : List String) : String :=
  if lines.isEmpty then ""
  else String.join [
    "\n" ++ margin ++ "/// <summary>",
    String.join (lines.map fun line => String.join ["\n" ++ margin ++ "/// ", line]),
    "\n" ++ margin ++ "/// </summary>"]

theorem renderBlock_summary {model : Value} {scopes : List Scope} {path : Path} {margin : String}
    {lines : List String} (h : lookup scopes model path = some (texts lines)) :
    renderBlock model scopes (Builtin.summary margin path) = .ok (summaryText margin lines) := by
  have hline : ∀ i n line, renderBlocks model (⟨"line", .string line, i, n⟩ :: scopes)
      [.text ("\n" ++ margin ++ "/// "), .value ["line"]] =
        .ok (String.join ["\n" ++ margin ++ "/// ", line]) := fun i n line =>
    renderBlocks_of_forall₂ (.cons (renderBlock_text ..) (.cons (renderBlock_string rfl) .nil))
  have hwhen := renderBlock_when h fun _ => renderBlocks_of_forall₂
    (.cons (renderBlock_text _ _ ("\n" ++ margin ++ "/// <summary>"))
      (.cons (renderBlock_each h hline)
        (.cons (renderBlock_text _ _ ("\n" ++ margin ++ "/// </summary>")) .nil)))
  rw [Builtin.summary, hwhen]
  cases lines <;> rfl

/-! ### Classes -/

/-- The attribute of a subtype. -/
def Mapping.text (m : Mapping) : String :=
  String.join ["\n[JsonInheritanceAttribute(", m.value, ", typeof(", m.typeName, "))]"]

/-- The attributes that tell the subtypes of a class apart. -/
def Discriminator.text (d : Discriminator) : String :=
  String.join [
    "\n[Newtonsoft.Json.JsonConverter(typeof(JsonInheritanceConverter), ", d.propertyName, ")]",
    String.join (d.mappings.map Mapping.text)]

/-- Whether a member must be present and may be null, as its attribute says it. -/
def Property.presence (p : Property) : String :=
  if p.required then
    if p.nullable then "Newtonsoft.Json.Required.AllowNull" else "Newtonsoft.Json.Required.Always"
  else "Newtonsoft.Json.Required.Default"

/-- The attribute of plain dates. -/
def dateConverter : String := "\n    [Newtonsoft.Json.JsonConverter(typeof(DateFormatConverter))]"

/-- The text of a member. -/
def Property.text (p : Property) : String :=
  String.join [
    summaryText "    " p.description,
    "\n    [Newtonsoft.Json.JsonProperty(",
    p.jsonName,
    ", Required = ",
    p.presence,
    ", NullValueHandling = Newtonsoft.Json.NullValueHandling.Ignore)]",
    if p.dateFormat then dateConverter else "",
    "\n    public ",
    p.typeName,
    " ",
    p.name,
    " \x7b get; set; \x7d\n"]

/-- The text of a class. -/
def Class.text (c : Class) : String :=
  String.join [
    summaryText "" c.description,
    (c.discriminator.map Discriminator.text).getD "",
    "\npublic ",
    if c.isAbstract then "abstract " else "",
    "partial class ",
    c.typeName,
    clause (fun name => String.join [" : ", name]) c.baseName,
    "\n\x7b",
    String.join (c.properties.map Property.text),
    "\x7d\n"]

theorem renderBlocks_member (model : Value) (p : Property) (i n : Nat) :
    renderBlocks model [⟨"property", p.toValue, i, n⟩] Builtin.member = .ok p.text := by
  have hsummary : renderBlock model [⟨"property", p.toValue, i, n⟩]
      (Builtin.summary "    " ["property", "description"]) =
        .ok (summaryText "    " p.description) := renderBlock_summary rfl
  have hjson : renderBlock model [⟨"property", p.toValue, i, n⟩]
      (.value ["property", "json_name"]) = .ok p.jsonName := renderBlock_string rfl
  have hpresence : renderBlock model [⟨"property", p.toValue, i, n⟩] Builtin.presence =
      .ok p.presence :=
    renderBlock_cond (v := .bool p.required) rfl
      (fun _ => renderBlocks_singleton
        (renderBlock_cond (v := .bool p.nullable) rfl (fun _ => rfl) fun _ => rfl)) fun _ => rfl
  have hdate : renderBlock model [⟨"property", p.toValue, i, n⟩] (.cond ["property", "date_format"]
      [.text "\n    [Newtonsoft.Json.JsonConverter(typeof(DateFormatConverter))]"] []) =
        .ok (if p.dateFormat then dateConverter else "") :=
    renderBlock_when (v := .bool p.dateFormat) rfl fun _ => rfl
  have htype : renderBlock model [⟨"property", p.toValue, i, n⟩]
      (.value ["property", "type_name"]) = .ok p.typeName := renderBlock_string rfl
  have hname : renderBlock model [⟨"property", p.toValue, i, n⟩]
      (.value ["property", "name"]) = .ok p.name := renderBlock_string rfl
  refine renderBlocks_of_forall₂ ?_
  simp only [Builtin.member, List.forall₂_cons, renderBlock_text, hsummary, hjson, hpresence, hdate,
    htype, hname, List.Forall₂.nil, and_self]

theorem renderBlock_hierarchyAttributes (c : Class) :
    renderBlock c.toValue [] Builtin.hierarchyAttributes =
      .ok ((c.discriminator.map Discriminator.text).getD "") := by
  have hchild : child? c.toValue "discriminator" =
      some ((c.discriminator.map Discriminator.toValue).getD .null) := rfl
  cases hd : c.discriminator with
  | none =>
    rw [hd] at hchild
    have hlookup : lookup [] c.toValue ["discriminator"] = some .null := by
      simp [lookup, descend?, hchild]
    rw [Builtin.hierarchyAttributes, renderBlock, hlookup]
    rfl
  | some d =>
    rw [hd] at hchild
    have hlookup : lookup [] c.toValue ["discriminator"] = some d.toValue := by
      simp [lookup, descend?, hchild]
    have hpath : ∀ key, lookup [] c.toValue ["discriminator", key] = child? d.toValue key := by
      intro key
      simp [lookup, descend?, hchild]
    have hmapping : ∀ i n m, renderBlocks c.toValue [⟨"mapping", Mapping.toValue m, i, n⟩] [
        .text "\n[JsonInheritanceAttribute(", .value ["mapping", "value"], .text ", typeof(",
        .value ["mapping", "type_name"], .text "))]"] = .ok m.text := fun i n m =>
      renderBlocks_of_forall₂ (.cons (renderBlock_text ..) (.cons (renderBlock_string rfl)
        (.cons (renderBlock_text ..) (.cons (renderBlock_string rfl)
          (.cons (renderBlock_text ..) .nil)))))
    exact renderBlock_when hlookup fun _ => renderBlocks_of_forall₂ (.cons (renderBlock_text ..)
      (.cons (renderBlock_string (hpath _)) (.cons (renderBlock_text ..)
        (.cons (renderBlock_each (hpath _) hmapping) .nil))))

theorem render_class (c : Class) : Builtin.classTemplate.render c.toValue = .ok c.text := by
  have hsummary : renderBlock c.toValue [] (Builtin.summary "" ["description"]) =
      .ok (summaryText "" c.description) := renderBlock_summary rfl
  have habstract : renderBlock c.toValue [] (.cond ["is_abstract"] [.text "abstract "] []) =
      .ok (if c.isAbstract then "abstract " else "") :=
    renderBlock_when (v := .bool c.isAbstract) rfl fun _ => rfl
  have hname : renderBlock c.toValue [] (.value ["type_name"]) = .ok c.typeName :=
    renderBlock_string rfl
  have hbase : renderBlock c.toValue [] (.cond ["base_name"]
      [.text " : ", .value ["base_name"]] []) =
        .ok (clause (fun name => String.join [" : ", name]) c.baseName) :=
    renderBlock_clause rfl fun name hname => renderBlocks_of_forall₂
      (.cons (renderBlock_text ..) (.cons (renderBlock_string hname) .nil))
  have hmembers : renderBlock c.toValue [] (.loop "property" ["properties"] Builtin.member) =
      .ok (String.join (c.properties.map Property.text)) :=
    renderBlock_each rfl fun i n p => renderBlocks_member c.toValue p i n
  refine renderBlocks_of_forall₂ ?_
  simp only [Builtin.classTemplate, List.forall₂_cons, renderBlock_text, hsummary,
    renderBlock_hierarchyAttributes, habstract, hname, hbase, hmembers, List.Forall₂.nil, and_self]

/-! ### Enumerations -/

/-- The text of a literal. -/
def EnumMember.text (isText : Bool) (m : EnumMember) : String :=
  String.join [
    if isText then
      String.join ["\n    [System.Runtime.Serialization.EnumMember(Value = ", m.value, ")]"]
    else "",
    "\n    ",
    m.name,
    " = ",
    toString m.number,
    ",\n"]

/-- The text of an enumeration. -/
def Enum.text (e : Enum) : String :=
  String.join [
    summaryText "" e.description,
    if e.isStringEnum then Builtin.textConverter else "",
    "\npublic enum ",
    e.typeName,
    "\n\x7b",
    String.join (e.members.map (EnumMember.text e.isStringEnum)),
    "\x7d\n"]

theorem renderBlocks_enumMember (e : Enum) (m : EnumMember) (i n : Nat) :
    renderBlocks e.toValue [⟨"member", m.toValue, i, n⟩] Builtin.enumMember =
      .ok (m.text e.isStringEnum) := by
  have hvalue : renderBlock e.toValue [⟨"member", m.toValue, i, n⟩] (.cond ["is_string_enum"] [
      .text "\n    [System.Runtime.Serialization.EnumMember(Value = ", .value ["member", "value"],
      .text ")]"] []) = .ok (if e.isStringEnum then
        String.join ["\n    [System.Runtime.Serialization.EnumMember(Value = ", m.value, ")]"]
        else "") :=
    renderBlock_when (v := .bool e.isStringEnum) rfl fun _ => renderBlocks_of_forall₂
      (.cons (renderBlock_text ..) (.cons (renderBlock_string rfl)
        (.cons (renderBlock_text ..) .nil)))
  have hname : renderBlock e.toValue [⟨"member", m.toValue, i, n⟩] (.value ["member", "name"]) =
      .ok m.name := renderBlock_string rfl
  have hnumber : renderBlock e.toValue [⟨"member", m.toValue, i, n⟩]
      (.value ["member", "number"]) = .ok (toString m.number) :=
    renderBlock_value (v := .int m.number) rfl
  refine renderBlocks_of_forall₂ ?_
  simp only [Builtin.enumMember, List.forall₂_cons, renderBlock_text, hvalue, hname, hnumber,
    List.Forall₂.nil, and_self]

theorem render_enum (e : Enum) : Builtin.enumTemplate.render e.toValue = .ok e.text := by
  have hsummary : renderBlock e.toValue [] (Builtin.summary "" ["description"]) =
      .ok (summaryText "" e.description) := renderBlock_summary rfl
  have hconverter : renderBlock e.toValue [] (.cond ["is_string_enum"]
      [.text Builtin.textConverter] []) =
        .ok (if e.isStringEnum then Builtin.textConverter else "") :=
    renderBlock_when (v := .bool e.isStringEnum) rfl fun _ =>
      renderBlocks_singleton (renderBlock_text ..)
  have hname : renderBlock e.toValue [] (.value ["type_name"]) = .ok e.typeName :=
    renderBlock_string rfl
  have hmembers : renderBlock e.toValue [] (.loop "member" ["members"] Builtin.enumMember) =
      .ok (String.join (e.members.map (EnumMember.text e.isStringEnum))) :=
    renderBlock_each rfl fun i n m => renderBlocks_enumMember e m i n
  refine renderBlocks_of_forall₂ ?_
  simp only [Builtin.enumTemplate, List.forall₂_cons, renderBlock_text, hsummary, hconverter, hname,
    hmembers, List.Forall₂.nil, and_self]

/-! ### Unions -/

/-- The text of the case at `index`. -/
def Variant.text (union : String) (index : Nat) (v : Variant) : String :=
  String.join [
    "\n    public bool Is", v.caseName, " => Index == ", toString index,
    ";\n\n    public ", v.typeName, " As", v.caseName, " => GetValue<", v.typeName, ">(",
    toString index,
    ");\n\n    public static implicit operator ", union, "(", v.typeName, " value) => new ", union,
    "(", toString index, ", value);\n"]

/-- The text of a union. -/
def NamedUnion.text (u : NamedUnion) : String :=
  String.join [
    summaryText "" u.description,
    "\n[Newtonsoft.Json.JsonConverter(typeof(OneOfConverter))]\npublic partial class ",
    u.typeName,
    " : OneOfBase<",
    u.typeArguments,
    ">\n\x7b\n    private ",
    u.typeName,
    "(int index, object value) : base(index, value)\n    \x7b\n    \x7d\n",
    String.join (u.variants.mapIdx (Variant.text u.typeName)),
    "\x7d\n"]

theorem renderBlocks_unionCase (u : NamedUnion) (v : Variant) (i n : Nat) :
    renderBlocks u.toValue [⟨"variant", v.toValue, i, n⟩] Builtin.unionCase =
      .ok (v.text u.typeName i) := by
  have hindex : renderBlock u.toValue [⟨"variant", v.toValue, i, n⟩] (.value ["loop", "index0"]) =
      .ok (toString i) := renderBlock_value (v := .int i) rfl
  have hcase : renderBlock u.toValue [⟨"variant", v.toValue, i, n⟩]
      (.value ["variant", "case_name"]) = .ok v.caseName := renderBlock_string rfl
  have htype : renderBlock u.toValue [⟨"variant", v.toValue, i, n⟩]
      (.value ["variant", "type_name"]) = .ok v.typeName := renderBlock_string rfl
  have hname : renderBlock u.toValue [⟨"variant", v.toValue, i, n⟩] (.value ["type_name"]) =
      .ok u.typeName := renderBlock_string rfl
  refine renderBlocks_of_forall₂ ?_
  simp only [Builtin.unionCase, List.forall₂_cons, renderBlock_text, hindex, hcase, htype, hname,
    List.Forall₂.nil, and_self]

theorem render_namedUnion (u : NamedUnion) :
    Builtin.namedUnionTemplate.render u.toValue = .ok u.text := by
  have hsummary : renderBlock u.toValue [] (Builtin.summary "" ["description"]) =
      .ok (summaryText "" u.description) := renderBlock_summary rfl
  have hname : renderBlock u.toValue [] (.value ["type_name"]) = .ok u.typeName :=
    renderBlock_string rfl
  have harguments : renderBlock u.toValue [] (.value ["type_arguments"]) = .ok u.typeArguments :=
    renderBlock_string rfl
  have hcases : renderBlock u.toValue [] (.loop "variant" ["variants"] Builtin.unionCase) =
      .ok (String.join (u.variants.mapIdx (Variant.text u.typeName))) :=
    renderBlock_loop rfl fun i n v => renderBlocks_unionCase u v i n
  refine renderBlocks_of_forall₂ ?_
  simp only [Builtin.namedUnionTemplate, List.forall₂_cons, renderBlock_text, hsummary, hname,
    harguments, hcases, List.Forall₂.nil, and_self]

end Model

end ContractGen
