import ContractGen.Template.Library
import ContractGen.Template.Parser

/-!
# The texts of the built-in templates

Templates are written as texts with tags, in which hyphens at some tags decide where lines end.
`Builtin.sources` has the texts of all built-in templates. The library is what reading them gives
(`Library.mapM_parse_sources`).

`piecesOf` writes a template as pieces of a text. Reading them gives the template back
(`foldlM_piecesOf`), so a text is read as a template if it has the pieces of that
(`parse_of_readPieces`), and a text without tags is read as it stands (`parse_codeLines`).
-/

namespace ContractGen

namespace Template

/-! ### Reading what is written -/

/-- A tag that removes no blanks. -/
def Piece.plain (tag : Tag) : Piece := .tag false false tag

mutual

/-- The pieces that a block is written as. Of a condition with an empty part only the other part is
written. -/
def Block.pieces : Block → List Piece
  | .text s => [.text s.toList]
  | .value path => [.plain (.value path)]
  | .cond path present [] => .plain (.ifStart false path) :: (piecesOf present ++ [.plain .ifEnd])
  | .cond path [] absent => .plain (.ifStart true path) :: (piecesOf absent ++ [.plain .ifEnd])
  | .cond path present absent =>
    .plain (.ifStart false path) ::
      (piecesOf present ++ .plain .ifElse :: (piecesOf absent ++ [.plain .ifEnd]))
  | .loop item path body => .plain (.loopStart item path) :: (piecesOf body ++ [.plain .loopEnd])

/-- The pieces that a template is written as. -/
def piecesOf : Template → List Piece
  | [] => []
  | block :: rest => block.pieces ++ piecesOf rest

end

@[simp]
theorem piece_plain (n : Nesting) (tag : Tag) : n.piece (.plain tag) = n.tag tag := rfl

@[simp]
theorem text_ne_plain (cs : List Char) (tag : Tag) : Piece.text cs ≠ .plain tag := by
  simp [Piece.plain]

mutual

theorem foldlM_pieces {block : Block} (h : .text [] ∉ block.pieces) (n : Nesting) :
    block.pieces.foldlM Nesting.piece n = some (n.push block) := by
  cases block with
  | text s =>
    cases hchars : s.toList with
    | nil => simp [Block.pieces, hchars] at h
    | cons c cs =>
      have hs : String.ofList (c :: cs) = s := by rw [← hchars, String.ofList_toList]
      have hpiece : n.piece (.text (c :: cs)) = some (n.push (.text (String.ofList (c :: cs)))) :=
        rfl
      rw [Block.pieces, hchars, List.foldlM_cons, hpiece, hs]
      rfl
  | value path => rfl
  | cond path present absent =>
    cases absent with
    | nil =>
      have hpresent : .text [] ∉ piecesOf present := by simpa [Block.pieces] using h
      simp [Block.pieces, List.foldlM_append, foldlM_piecesOf hpresent, Nesting.tag, Nesting.enter,
        Nesting.condition, Nesting.push]
    | cons other absent =>
      cases present with
      | nil =>
        have habsent : .text [] ∉ piecesOf (other :: absent) := by
          simpa [Block.pieces] using h
        simp [Block.pieces, List.foldlM_append, foldlM_piecesOf habsent, Nesting.tag,
          Nesting.enter, Nesting.condition, Nesting.push]
      | cons first present =>
        obtain ⟨hpresent, habsent⟩ :
            .text [] ∉ piecesOf (first :: present) ∧ .text [] ∉ piecesOf (other :: absent) := by
          simpa [Block.pieces] using h
        simp [Block.pieces, List.foldlM_append, foldlM_piecesOf hpresent,
          foldlM_piecesOf habsent, Nesting.tag, Nesting.enter, Nesting.condition, Nesting.push]
  | loop item path body =>
    have hbody : .text [] ∉ piecesOf body := by simpa [Block.pieces] using h
    simp [Block.pieces, List.foldlM_append, foldlM_piecesOf hbody, Nesting.tag, Nesting.enter,
      Nesting.push]

/-- Reading the pieces of a template gives the template. -/
theorem foldlM_piecesOf {t : Template} (h : .text [] ∉ piecesOf t) (n : Nesting) :
    (piecesOf t).foldlM Nesting.piece n = some ⟨t.reverse ++ n.blocks, n.openings⟩ := by
  cases t with
  | nil => rfl
  | cons block rest =>
    obtain ⟨hblock, hrest⟩ := by simpa [piecesOf] using h
    rw [piecesOf, List.foldlM_append, foldlM_pieces hblock]
    simpa [Nesting.push] using foldlM_piecesOf hrest (n.push block)

end

/-- What reading looks at: no comment, no empty text, and of tags what they say. -/
def Piece.bare : Piece → Option Piece
  | .text [] => none
  | .text cs => some (.text cs)
  | .tag _ _ .comment => none
  | .tag _ _ content => some (.plain content)

theorem foldlM_bare (pieces : List Piece) (n : Nesting) :
    (pieces.filterMap Piece.bare).foldlM Nesting.piece n = pieces.foldlM Nesting.piece n := by
  induction pieces generalizing n with
  | nil => rfl
  | cons piece pieces ih =>
    cases piece with
    | text cs =>
      cases cs with
      | nil => exact ih n
      | cons c cs => exact bind_congr fun after => ih after
    | tag before after content =>
      cases content with
      | comment => exact ih n
      | _ => exact bind_congr fun after => ih after

/-! ### The texts -/

namespace Builtin

/-- A tag that fills in a value. -/
def fill (path : String) : String := "\x7b\x7b " ++ path ++ " \x7d\x7d"

/-- A tag of a condition or loop. -/
def tag (words : String) : String := "\x7b% " ++ words ++ " %\x7d"

/-- A tag that removes the blanks before it. -/
def cutTag (words : String) : String := "\x7b%- " ++ words ++ " %\x7d"

/-- The end of a loop over members, which removes the blanks after it. -/
def loopEndTag : String := "\x7b% endfor -%\x7d"

/-- The text of the template of files. -/
def fileSource : String := codeLines [
  "//----------------------",
  "// <auto-generated>",
  "//     Generated by schemaforge. Changes to this file will be lost on regeneration.",
  "// </auto-generated>",
  "//----------------------",
  "",
  "#nullable " ++ tag "if nullable_annotations" ++ "enable" ++ tag "else" ++ "disable" ++
    tag "endif",
  cutTag "if namespace",
  "",
  "namespace " ++ fill "namespace" ++ ";",
  cutTag "endif",
  "",
  fill "types_code"]

/-- The lines for a comment. -/
def summarySource (margin path : String) : List String := [
  cutTag ("if " ++ path),
  margin ++ "/// <summary>",
  cutTag ("for line in " ++ path),
  margin ++ "/// " ++ fill "line",
  cutTag "endfor",
  margin ++ "/// </summary>",
  cutTag "endif"]

/-- The text of the template of classes. -/
def classSource : String := codeLines (summarySource "" "description" ++ [
  cutTag "if discriminator",
  "[Newtonsoft.Json.JsonConverter(typeof(JsonInheritanceConverter), " ++
    fill "discriminator.property_name" ++ ")]",
  cutTag "for mapping in discriminator.mappings",
  "[JsonInheritanceAttribute(" ++ fill "mapping.value" ++ ", typeof(" ++
    fill "mapping.type_name" ++ "))]",
  cutTag "endfor",
  cutTag "endif",
  "public " ++ tag "if is_abstract" ++ "abstract " ++ tag "endif" ++ "partial class " ++
    fill "type_name" ++ tag "if base_name" ++ " : " ++ fill "base_name" ++ tag "endif",
  "\x7b",
  cutTag "for property in properties"] ++ summarySource "    " "property.description" ++ [
  "    [Newtonsoft.Json.JsonProperty(" ++ fill "property.json_name" ++ ", Required = " ++
    tag "if property.required" ++ tag "if property.nullable" ++
    "Newtonsoft.Json.Required.AllowNull" ++ tag "else" ++ "Newtonsoft.Json.Required.Always" ++
    tag "endif" ++ tag "else" ++ "Newtonsoft.Json.Required.Default" ++ tag "endif" ++
    ", NullValueHandling = Newtonsoft.Json.NullValueHandling.Ignore)]",
  cutTag "if property.date_format",
  "    [Newtonsoft.Json.JsonConverter(typeof(DateFormatConverter))]",
  cutTag "endif",
  "    public " ++ fill "property.type_name" ++ " " ++ fill "property.name" ++
    " \x7b get; set; \x7d",
  loopEndTag,
  "\x7d"])

/-- The text of the template of enumerations. -/
def enumSource : String := codeLines (summarySource "" "description" ++ [
  cutTag "if is_string_enum",
  "[Newtonsoft.Json.JsonConverter(typeof(Newtonsoft.Json.Converters.StringEnumConverter))]",
  cutTag "endif",
  "public enum " ++ fill "type_name",
  "\x7b",
  cutTag "for member in members",
  cutTag "if is_string_enum",
  "    [System.Runtime.Serialization.EnumMember(Value = " ++ fill "member.value" ++ ")]",
  cutTag "endif",
  "    " ++ fill "member.name" ++ " = " ++ fill "member.number" ++ ",",
  loopEndTag,
  "\x7d"])

/-- The text of the template of unions with a name. -/
def namedUnionSource : String := codeLines (summarySource "" "description" ++ [
  "[Newtonsoft.Json.JsonConverter(typeof(OneOfConverter))]",
  "public partial class " ++ fill "type_name" ++ " : OneOfBase<" ++ fill "type_arguments" ++ ">",
  "\x7b",
  "    private " ++ fill "type_name" ++ "(int index, object value) : base(index, value)",
  "    \x7b",
  "    \x7d",
  tag "for variant in variants",
  "    public bool Is" ++ fill "variant.case_name" ++ " => Index == " ++ fill "loop.index0" ++ ";",
  "",
  "    public " ++ fill "variant.type_name" ++ " As" ++ fill "variant.case_name" ++
    " => GetValue<" ++ fill "variant.type_name" ++ ">(" ++ fill "loop.index0" ++ ");",
  "",
  "    public static implicit operator " ++ fill "type_name" ++ "(" ++ fill "variant.type_name" ++
    " value) => new " ++ fill "type_name" ++ "(" ++ fill "loop.index0" ++ ", value);",
  loopEndTag,
  "\x7d"])

/-- The text of the template of unions declared in place. -/
def valueUnionSource : String := codeLines [
  "public sealed class OneOf<" ++ fill "type_parameters" ++ "> : OneOfBase<" ++
    fill "type_parameters" ++ ">",
  "\x7b",
  "    private OneOf(int index, object value) : base(index, value)",
  "    \x7b",
  "    \x7d",
  tag "for parameter in parameters",
  "    public static implicit operator OneOf<" ++ fill "type_parameters" ++ ">(" ++
    fill "parameter" ++ " value) => new OneOf<" ++ fill "type_parameters" ++ ">(" ++
    fill "loop.index0" ++ ", value);",
  loopEndTag,
  "\x7d"]

/-- The text of the template of the base types of unions. -/
def abstractUnionSource : String := codeLines ([
  "[Newtonsoft.Json.JsonConverter(typeof(OneOfConverter))]",
  "public abstract class OneOfBase<" ++ fill "type_parameters" ++ ">"] ++ unionMembers ++ [
  "    public TResult Match<TResult>(" ++ tag "for parameter in parameters" ++ "System.Func<" ++
    fill "parameter" ++ ", TResult> f" ++ fill "loop.index0" ++ tag "if not loop.last" ++ ", " ++
    tag "endif" ++ tag "endfor" ++ ")",
  "    \x7b",
  "        switch (Index)",
  "        \x7b",
  cutTag "for parameter in parameters",
  "            case " ++ fill "loop.index0" ++ ": return f" ++ fill "loop.index0" ++ "((" ++
    fill "parameter" ++ ")Value);",
  cutTag "endfor",
  "            default: throw new System.InvalidOperationException(\"Unknown union case \" + " ++
    "Index + \".\");",
  "        \x7d",
  "    \x7d",
  "\x7d"])

/-- The text of the template of the converter of plain dates. -/
def dateFormatConverterSource : String := codeLines [
  "internal class DateFormatConverter : Newtonsoft.Json.Converters.IsoDateTimeConverter",
  "\x7b",
  "    public DateFormatConverter()",
  "    \x7b",
  "        DateTimeFormat = " ++ fill "date_format" ++ ";",
  "    \x7d",
  "\x7d"]

/-- The texts of the built-in templates by name. -/
def sources : List (String × String) := [
  ("File", fileSource),
  ("Class", classSource),
  ("Enum", enumSource),
  ("OneOfNamed", namedUnionSource),
  ("OneOfAnonymous", valueUnionSource),
  ("OneOfBase", abstractUnionSource),
  ("OneOfConverter", codeLines oneOfConverterLines),
  ("JsonInheritanceAttribute", codeLines inheritanceAttributeLines),
  ("JsonInheritanceConverter", codeLines inheritanceConverterLines),
  ("DateFormatConverter", dateFormatConverterSource)]

end Builtin

/-! ### Texts without tags -/

/-- Whether a tag starts somewhere in a text. -/
def opensTag : List Char → Bool
  | [] => false
  | [_] => false
  | a :: b :: rest =>
    a == '\x7b' && (b == '\x7b' || b == '%' || b == '#') || opensTag (b :: rest)

theorem opensTag_line (line rest : List Char) :
    opensTag (line ++ '\n' :: rest) = (opensTag line || opensTag rest) := by
  induction line using opensTag.induct with
  | case1 => cases rest <;> simp [opensTag]
  | case2 c => cases rest <;> simp [opensTag]
  | case3 a b line ih =>
    simp only [List.cons_append] at ih ⊢
    rw [opensTag, ih, opensTag]
    simp only [Bool.or_assoc]

theorem opensTag_codeLines (lines : List String) :
    opensTag (codeLines lines).toList = lines.any fun line => opensTag line.toList := by
  induction lines with
  | nil => rfl
  | cons line lines ih =>
    have hchars : (codeLines (line :: lines)).toList =
        line.toList ++ '\n' :: (codeLines lines).toList := by
      simp [codeLines]
    rw [hchars, opensTag_line, ih, List.any_cons]

theorem scan_of_not_opensTag {fuel : Nat} {seen cs : List Char} (h : opensTag cs = false)
    (hfuel : cs.length < fuel) : scan fuel seen cs = some [.text (seen.reverse ++ cs)] := by
  induction cs generalizing fuel seen with
  | nil =>
    obtain ⟨fuel, rfl⟩ := Nat.exists_eq_succ_of_ne_zero (Nat.ne_of_gt hfuel)
    simp [scan]
  | cons c cs ih =>
    obtain ⟨fuel, rfl⟩ := Nat.exists_eq_succ_of_ne_zero (Nat.ne_of_gt (Nat.zero_lt_of_lt hfuel))
    have hrest : opensTag cs = false := by
      cases cs with
      | nil => rfl
      | cons d cs => exact (Bool.or_eq_false_iff.1 h).2
    have hnext : scan fuel (c :: seen) cs = some [.text (seen.reverse ++ c :: cs)] := by
      rw [ih hrest (Nat.lt_of_succ_lt_succ hfuel)]
      simp
    rw [scan]
    · exact hnext
    · rintro rest rfl rfl
      simp [opensTag] at h
    · rintro rest rfl rfl
      simp [opensTag] at h
    · rintro rest rfl rfl
      simp [opensTag] at h

/-- The pieces of a text that are read. -/
def readPieces (cs : List Char) : Option (List Piece) :=
  (scan (cs.length + 1) [] cs).map fun pieces => (trimPieces false pieces).filterMap Piece.bare

/-- A text whose pieces are those of a template is a text of that template. -/
theorem parse_of_readPieces {text : String} {t : Template}
    (h : readPieces text.toList = some (piecesOf t)) : parse text = some t := by
  obtain ⟨pieces, hscan, hpieces⟩ := Option.map_eq_some_iff.1 h
  have hfull : .text [] ∉ piecesOf t := by
    rw [← hpieces, List.mem_filterMap]
    rintro ⟨(_ | _) | ⟨_, _, _ | _⟩, -, hbare⟩ <;> cases hbare
  have hread := (foldlM_bare (trimPieces false pieces) ⟨[], []⟩).symm.trans
    (hpieces ▸ foldlM_piecesOf hfull ⟨[], []⟩)
  rw [parse, ← String.length_toList, hscan]
  simp [hread, Nesting.finish]

theorem parse_codeLines {line : String} {lines : List String}
    (h : ((line :: lines).all fun line => !opensTag line.toList) = true) :
    parse (codeLines (line :: lines)) = some [.text (codeLines (line :: lines))] := by
  have hplain : opensTag (codeLines (line :: lines)).toList = false := by
    rw [opensTag_codeLines]
    simpa using h
  have hchars : (codeLines (line :: lines)).toList ≠ [] := by simp [codeLines]
  obtain ⟨c, cs, hcs⟩ := List.exists_cons_of_ne_nil hchars
  refine parse_of_readPieces ?_
  rw [readPieces, scan_of_not_opensTag hplain (Nat.lt_succ_self _)]
  simp [trimPieces, piecesOf, Block.pieces, Piece.bare, hcs]

/-! ### Texts with tags -/

theorem readPieces_sources :
    readPieces Builtin.fileSource.toList = some (piecesOf Builtin.fileTemplate) ∧
    readPieces Builtin.classSource.toList = some (piecesOf Builtin.classTemplate) ∧
    readPieces Builtin.enumSource.toList = some (piecesOf Builtin.enumTemplate) ∧
    readPieces Builtin.namedUnionSource.toList = some (piecesOf Builtin.namedUnionTemplate) ∧
    readPieces Builtin.valueUnionSource.toList = some (piecesOf Builtin.valueUnionTemplate) ∧
    readPieces Builtin.abstractUnionSource.toList =
      some (piecesOf Builtin.abstractUnionTemplate) ∧
    readPieces Builtin.dateFormatConverterSource.toList =
      some (piecesOf Builtin.dateFormatConverterTemplate) := by
  open Template.Builtin in
  simp only [fileSource, classSource, enumSource, namedUnionSource, valueUnionSource,
    abstractUnionSource, dateFormatConverterSource, summarySource, fill, tag, cutTag, loopEndTag]
  open Template.Builtin in
  simp only [fileTemplate, fileHead, classTemplate, summary, hierarchyAttributes, member, presence,
    enumTemplate, enumMember, textConverter, namedUnionTemplate, unionCase, valueUnionTemplate,
    conversion, abstractUnionTemplate, unionMembers, caseFunction, caseApplication, unionEnd,
    dateFormatConverterTemplate, piecesOf, Block.pieces]
  simp only [codeLines, List.cons_append, List.nil_append, List.map_cons, List.map_nil,
    String.toList_join, List.flatMap_cons, List.flatMap_nil, String.toList_append]
  -- a literal is `String.ofList` of its characters, which is cheaper to see than to decode it
  repeat rw [String.toList_ofList]
  decide +kernel

theorem parse_classSource : parse Builtin.classSource = some Builtin.classTemplate :=
  parse_of_readPieces readPieces_sources.2.1

theorem not_opensTag_utilities :
    (Builtin.oneOfConverterLines.all fun line => !opensTag line.toList) = true ∧
    (Builtin.inheritanceAttributeLines.all fun line => !opensTag line.toList) = true ∧
    (Builtin.inheritanceConverterLines.all fun line => !opensTag line.toList) = true := by
  simp only [Builtin.oneOfConverterLines, Builtin.inheritanceAttributeLines,
    Builtin.inheritanceConverterLines, List.all_cons, List.all_nil, String.toList_append]
  repeat rw [String.toList_ofList]
  decide +kernel

/-- **The built-in library is what reading the texts gives.** -/
theorem Library.mapM_parse_sources :
    Builtin.sources.mapM (fun source => (parse source.2).map fun t => (source.1, t)) =
      some Library.builtin := by
  obtain ⟨hfile, hclass, henum, hnamed, hvalue, habstract, hdate⟩ := readPieces_sources
  obtain ⟨hunion, hattribute, hinheritance⟩ := not_opensTag_utilities
  have hunionText : parse (codeLines Builtin.oneOfConverterLines) =
    some Builtin.oneOfConverterTemplate := parse_codeLines hunion
  have hattributeText : parse (codeLines Builtin.inheritanceAttributeLines) =
    some Builtin.inheritanceAttributeTemplate := parse_codeLines hattribute
  have hinheritanceText : parse (codeLines Builtin.inheritanceConverterLines) =
    some Builtin.inheritanceConverterTemplate := parse_codeLines hinheritance
  simp only [Builtin.sources, List.mapM_cons, List.mapM_nil, parse_of_readPieces hfile,
    parse_of_readPieces hclass, parse_of_readPieces henum, parse_of_readPieces hnamed,
    parse_of_readPieces hvalue, parse_of_readPieces habstract, parse_of_readPieces hdate,
    hunionText, hattributeText, hinheritanceText, Option.map_some]
  rfl

end Template

end ContractGen
