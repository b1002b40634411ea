import ContractGen.Proofs.Filling
import ContractGen.Proofs.TemplateTexts
import ContractGen.Text.Blank

/-!
# The layout of classes

The template of classes is the text `Builtin.classSource`, in which hyphens at some tags decide
where lines end. `Model.Class.lines` says what a class looks like, line by line and without
templates: its comment, the attributes of its hierarchy, its header, and a body with a blank line
between members. `class_layout` says that this is what the template gives for every model. The texts
of its parts are the lines of the layout, each after a line feed (`Model.newLines`).
-/

namespace ContractGen

namespace Text

theorem trim_line_feeds {cs : List Char} {first last : Char} (hfirst : cs.head? = some first)
    (hstart : isBlank first = false) (hlast : cs.getLast? = some last)
    (hend : isBlank last = false) : trim ('\n' :: (cs ++ ['\n'])) = cs := by
  have hfeed : isBlank '\n' = true := by decide
  obtain ⟨rest, rfl⟩ := List.head?_eq_some_iff.1 hfirst
  have htrim : trimStart ('\n' :: (first :: rest ++ ['\n'])) = first :: rest ++ ['\n'] := by
    simp [trimStart, hfeed, hstart]
  obtain ⟨before, hbefore⟩ := List.getLast?_eq_some_iff.1 hlast
  rw [trim, htrim, hbefore]
  simp [trimEnd, hfeed, hend]

end Text

namespace Model

open Template (clause Library)

/-! ### The layout -/

/-- The lines of a comment; there are none without text. `margin` starts each of them. -/
def docBlock (margin : String) (lines : List String) : List String :=
  if lines.isEmpty then []
  else
    (margin ++ "/// <summary>") :: lines.map (fun line => margin ++ "/// " ++ line) ++
      [margin ++ "/// </summary>"]

/-- The lines of the attributes that tell subtypes apart. -/
def Discriminator.lines (d : Discriminator) : List String :=
  ("[Newtonsoft.Json.JsonConverter(typeof(JsonInheritanceConverter), " ++ d.propertyName ++ ")]") ::
    d.mappings.map fun m =>
      "[JsonInheritanceAttribute(" ++ m.value ++ ", typeof(" ++ m.typeName ++ "))]"

/-- What a member asks of the data. -/
def Property.requirement (p : Property) : String :=
  match p.required, p.nullable with
  | true, false => "Always"
  | true, true => "AllowNull"
  | false, _ => "Default"

/-- The lines of a member. -/
def Property.lines (p : Property) : List String :=
  docBlock "    " p.description ++
  ["    [Newtonsoft.Json.JsonProperty(" ++ p.jsonName ++ ", Required = Newtonsoft.Json.Required." ++
    p.requirement ++ ", NullValueHandling = Newtonsoft.Json.NullValueHandling.Ignore)]"] ++
  (if p.dateFormat then ["    [Newtonsoft.Json.JsonConverter(typeof(DateFormatConverter))]"]
    else []) ++
  ["    public " ++ p.typeName ++ " " ++ p.name ++ " \x7b get; set; \x7d"]

/-- The base class in a header, if there is one and its name is not empty. -/
def baseText : Option String → String
  | some name => if name = "" then "" else " : " ++ name
  | none => ""

/-- The header of a class. -/
def Class.header (c : Class) : String :=
  "public " ++ (if c.isAbstract then "abstract " else "") ++ "partial class " ++ c.typeName ++
    baseText c.baseName

/-- The lines of the body of a class: its members with a blank line between two. -/
def Class.body (c : Class) : List String :=
  match c.properties with
  | [] => ["\x7b\x7d"]
  | ps => "\x7b" :: List.intercalate [""] (ps.map Property.lines) ++ ["\x7d"]

/-- The lines of a class. -/
def Class.lines (c : Class) : List String :=
  docBlock "" c.description ++ (c.discriminator.map Discriminator.lines).getD [] ++
    c.header :: c.body

/-! ### Lines after line feeds -/

/-- Lines in a row, each after a line feed. -/
def newLines (lines : List String) : String := String.join (lines.map ("\n" ++ ·))

@[simp] theorem newLines_nil : newLines [] = "" := rfl

@[simp] theorem newLines_cons (line : String) (lines : List String) :
    newLines (line :: lines) = "\n" ++ line ++ newLines lines := by
  simp [newLines]

@[simp] theorem newLines_append (a b : List String) :
    newLines (a ++ b) = newLines a ++ newLines b := by
  simp [newLines]

theorem intercalate_cons (line : String) (lines : List String) :
    String.intercalate "\n" (line :: lines) = line ++ newLines lines := by
  induction lines generalizing line with
  | nil => simp
  | cons next lines ih => rw [String.intercalate_cons_cons, ih, newLines_cons, String.append_assoc,
      String.append_assoc]

theorem summaryText_eq (margin : String) (lines : List String) :
    summaryText margin lines = newLines (docBlock margin lines) := by
  unfold summaryText docBlock
  split_ifs
  · rfl
  · simp [newLines, String.append_assoc, Function.comp_def]

theorem Discriminator.text_eq (d : Discriminator) : d.text = newLines d.lines := by
  have hmappings : d.mappings.map Mapping.text = d.mappings.map fun m =>
      "\n" ++ ("[JsonInheritanceAttribute(" ++ m.value ++ ", typeof(" ++ m.typeName ++ "))]") := by
    refine List.map_congr_left fun m _ => ?_
    simp [Mapping.text, ← String.append_assoc]
  simp [Discriminator.text, Discriminator.lines, newLines, hmappings, ← String.append_assoc,
    Function.comp_def]

theorem Property.presence_eq (p : Property) :
    p.presence = "Newtonsoft.Json.Required." ++ p.requirement := by
  unfold presence requirement
  cases p.required <;> cases p.nullable <;> simp

theorem Property.text_eq (p : Property) : p.text = newLines p.lines ++ "\n" := by
  -- the template has these literals in one piece
  have hjson : "\n    [Newtonsoft.Json.JsonProperty(" =
      "\n" ++ "    [Newtonsoft.Json.JsonProperty(" := rfl
  have hrequired : ", Required = Newtonsoft.Json.Required." =
      ", Required = " ++ "Newtonsoft.Json.Required." := rfl
  have hmember : "\n    public " = "\n" ++ "    public " := rfl
  have hend : " \x7b get; set; \x7d\n" = " \x7b get; set; \x7d" ++ "\n" := rfl
  have hdate : dateConverter =
      "\n" ++ "    [Newtonsoft.Json.JsonConverter(typeof(DateFormatConverter))]" := rfl
  unfold Property.text Property.lines
  rw [summaryText_eq, presence_eq, hjson, hrequired, hmember, hend, hdate]
  cases p.dateFormat <;>
    simp only [newLines_append, newLines_cons, newLines_nil, String.join_cons, String.join_nil,
      String.append_assoc, String.append_empty, String.empty_append, if_true, if_false,
      Bool.false_eq_true]

theorem Class.header_eq (c : Class) :
    "\npublic " ++ (if c.isAbstract then "abstract " else "") ++ "partial class " ++ c.typeName ++
      clause (fun name => String.join [" : ", name]) c.baseName = "\n" ++ c.header := by
  have hbase : clause (fun name => String.join [" : ", name]) c.baseName = baseText c.baseName := by
    cases c.baseName with
    | none => rfl
    | some name => simp [clause, baseText]
  rw [hbase, Class.header, ← String.append_assoc, ← String.append_assoc, ← String.append_assoc,
    ← String.append_assoc]
  rfl

/-- The line feed at the end of a member is a blank line before the next one, or ends the last. -/
theorem join_members (p : Property) (ps : List Property) :
    String.join ((p :: ps).map Property.text) =
      newLines (List.intercalate [""] ((p :: ps).map Property.lines)) ++ "\n" := by
  induction ps generalizing p with
  | nil => simp [Property.text_eq, List.intercalate]
  | cons q ps ih =>
    rw [List.map_cons, String.join_cons, ih, Property.text_eq]
    simp [List.intercalate, String.append_assoc]

theorem Class.body_eq (c : Class) :
    "\n\x7b" ++ String.join (c.properties.map Property.text) ++ "\x7d" = newLines c.body := by
  have hopen : "\n\x7b" = "\n" ++ "\x7b" := rfl
  unfold Class.body
  split
  · rename_i hnone
    rw [hnone]
    rfl
  · rename_i hsome
    obtain ⟨p, ps, hps⟩ := List.exists_cons_of_ne_nil hsome
    rw [hps, join_members, hopen]
    simp only [newLines_append, newLines_cons, newLines_nil, String.append_assoc,
      String.append_empty]

theorem Class.text_eq (c : Class) : c.text = newLines c.lines ++ "\n" := by
  have hattributes : (c.discriminator.map Discriminator.text).getD "" =
      newLines ((c.discriminator.map Discriminator.lines).getD []) := by
    cases c.discriminator with
    | none => rfl
    | some d => exact d.text_eq
  have hend : "\x7d\n" = "\x7d" ++ "\n" := rfl
  have htext : c.text = summaryText "" c.description ++
      (c.discriminator.map Discriminator.text).getD "" ++
      ("\npublic " ++ (if c.isAbstract then "abstract " else "") ++ "partial class " ++
        c.typeName ++ clause (fun name => String.join [" : ", name]) c.baseName) ++
      ("\n\x7b" ++ String.join (c.properties.map Property.text) ++ "\x7d") ++ "\n" := by
    rw [Class.text, hend]
    simp only [String.join_cons, String.join_nil, String.append_assoc, String.append_empty]
  rw [htext, c.header_eq, c.body_eq, hattributes, summaryText_eq, Class.lines]
  simp only [newLines_append, newLines_cons, String.append_assoc]

/-! ### The ends of a class -/

theorem Class.exists_first (c : Class) :
    ∃ line rest, c.lines = line :: rest ∧
      ∃ first, line.toList.head? = some first ∧ Text.isBlank first = false := by
  cases hdoc : c.description with
  | cons text texts =>
    exact ⟨_, _, by rw [Class.lines, hdoc]; rfl, '/', by simp, by decide⟩
  | nil =>
    cases hkinds : c.discriminator with
    | some d => exact ⟨_, _, by rw [Class.lines, hdoc, hkinds]; rfl, '[', by simp, by decide⟩
    | none => exact ⟨_, _, by rw [Class.lines, hdoc, hkinds]; rfl, 'p', by simp [header], by decide⟩

theorem Class.getLast?_newLines (c : Class) : (newLines c.lines).toList.getLast? = some '\x7d' := by
  have hlines : newLines c.lines = newLines (docBlock "" c.description ++
      (c.discriminator.map Discriminator.lines).getD [] ++ [c.header]) ++
        ("\n\x7b" ++ String.join (c.properties.map Property.text)) ++ "\x7d" := by
    rw [String.append_assoc, c.body_eq, ← newLines_append, Class.lines]
    simp only [List.append_assoc, List.singleton_append]
  rw [hlines, String.toList_append, List.getLast?_append]
  rfl

theorem Class.trim_text (c : Class) :
    Text.trimString c.text = String.intercalate "\n" c.lines := by
  obtain ⟨line, rest, hlines, first, hfirst, hstart⟩ := c.exists_first
  have htext : newLines c.lines = "\n" ++ String.intercalate "\n" c.lines := by
    rw [hlines, intercalate_cons, newLines_cons, String.append_assoc]
  have hhead : (String.intercalate "\n" c.lines).toList.head? = some first := by
    rw [hlines, intercalate_cons, String.toList_append, List.head?_append, hfirst]
    rfl
  have hlast : (String.intercalate "\n" c.lines).toList.getLast? = some '\x7d' := by
    obtain ⟨more, hmore⟩ := List.head?_eq_some_iff.1 hhead
    have h := c.getLast?_newLines
    rw [htext, String.toList_append, hmore, List.getLast?_append_of_ne_nil _ (by simp)] at h
    rw [hmore, h]
  have hchars : ("\n" ++ String.intercalate "\n" c.lines ++ "\n").toList =
      '\n' :: ((String.intercalate "\n" c.lines).toList ++ ['\n']) := by
    simp
  rw [c.text_eq, htext, Text.trimString, hchars,
    Text.trim_line_feeds hhead hstart hlast (by decide), String.ofList_toList]

/-- **The layout of classes.** For every model, the template of classes is filled without an error
and gives the lines of the layout, but for blanks around them. -/
theorem class_layout (c : Class) :
    ∃ code, Library.builtin.render Template.Name.class c.toValue = .ok code ∧
      (∃ t, Template.parse Template.Builtin.classSource = some t ∧ t.render c.toValue = .ok code) ∧
      Text.trimString code = String.intercalate "\n" c.lines :=
  ⟨c.text, Library.render_of_lookup rfl (render_class c),
    ⟨_, Template.parse_classSource, render_class c⟩, c.trim_text⟩

end Model

end ContractGen
