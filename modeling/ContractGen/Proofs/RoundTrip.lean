import ContractGen.Proofs.RecordFields
import ContractGen.Schema.Document
import ContractGen.Schema.Encode

/-!
# Graphs written and read back

The JSON form of a graph is read as that graph, in whatever order the entries of its objects stand.
Annotations and literals are kept as they are if they are in canonical form, and since reading puts
them there, this holds of all graphs that are read (`isCanonical_of_ofValue`). `graph_round_trip`
says so for graphs, and for what loading makes of them.

A value *yields* a result if all its orders are read as that result (`Decoder.Yields`). Each part
of a graph has a lemma that its written form yields it.
-/

namespace ContractGen

namespace Schema

open Json (Value)
open Decoder (field?)

/-! ### Values that are read in every order -/

namespace Decoder

variable {α : Type} {decode : Decoder α} {v : Value} {a : α}

/-- The value is read as `a` in every order of entries. -/
def Yields (decode : Decoder α) (v : Value) (a : α) : Prop := ∀ w, v.Reorders w → decode w = .ok a

theorem yields_of_plain (h : decode v = .ok a) (harray : ∀ items, v ≠ .array items)
    (hobject : ∀ entries, v ≠ .object entries) : decode.Yields v a := by
  intro w hw
  rw [hw.eq_of_plain harray hobject]
  exact h

theorem yields_text (s : String) : text.Yields (.string s) s :=
  yields_of_plain rfl (by simp) (by simp)

theorem yields_flag (b : Bool) : flag.Yields (.bool b) b :=
  yields_of_plain rfl (by simp) (by simp)

theorem yields_nodeId (id : NodeId) : nodeId.Yields id.toValue id := by
  refine yields_of_plain ?_ ?_ ?_ <;> simp [NodeId.toValue, Value.int, nodeId]

theorem yields_literal (h : v.isCanonical = true) : literal.Yields v v := by
  intro w hw
  rw [literal, hw.2, v.canonical_of_isCanonical h]

theorem yields_extensions {e : Extensions} (h : (Value.object e).isCanonical = true) :
    extensions.Yields (.object e) e := by
  intro w hw
  have hcanonical := hw.2
  rw [Value.canonical_of_isCanonical _ h] at hcanonical
  cases w with
  | object entries =>
    rw [Value.canonical] at hcanonical
    rw [extensions, Value.object.inj hcanonical]
  | _ => simp [Value.canonical] at hcanonical

theorem Yields.optional (h : decode.Yields v a) (hnull : v.canonical ≠ .null) :
    (Decoder.optional decode).Yields v (some a) := by
  intro w hw
  have hw' : w ≠ .null := by
    rintro rfl
    exact hnull hw.2.symm
  unfold Decoder.optional
  split
  · exact absurd rfl hw'
  · rw [h w hw]
    rfl

theorem Yields.list {f : α → Value} {as : List α} (h : ∀ a ∈ as, decode.Yields (f a) a) :
    (Decoder.list decode).Yields (.array (as.map f)) as := by
  intro w hw
  obtain ⟨items, rfl, hitems⟩ := hw.array
  rw [Decoder.list, mapM_eq_ok_iff]
  rw [List.forall₂_map_left_iff, List.forall₂_iff_get] at hitems
  rw [List.forall₂_iff_get]
  exact ⟨hitems.1.symm, fun i hi hi' => h _ (List.get_mem _ _) _ (hitems.2 i hi' hi)⟩

end Decoder

/-! ### Fields in every order -/

/-- What the first entries hold under a name can be read from the second. -/
def SameFields (entries entries' : List (String × Value)) : Prop :=
  ∀ {α : Type} (name : String) (decode : Decoder α) (x : Option α),
    Option.Rel decode.Yields (entries.lookup name) x → field? name decode entries' = .ok x

theorem sameFields_of_lookup {entries entries' : List (String × Value)}
    (hnodup : (entries'.map Prod.fst).Nodup)
    (hlookup : ∀ k, Option.Rel Value.Reorders (entries.lookup k) (entries'.lookup k)) :
    SameFields entries entries' := by
  intro α name decode x hx
  refine Decoder.field?_of_nodup hnodup ?_
  have hname := hlookup name
  generalize entries.lookup name = found at hname hx
  generalize entries'.lookup name = found' at hname ⊢
  cases hname with
  | none => cases hx; exact .none
  | some hw => cases hx with | some hv => exact .some (hv _ hw)

theorem sameFields_of_reorders {entries : List (String × Value)} {w : Value}
    (hnodup : (entries.map Prod.fst).Nodup) (h : (Value.object entries).Reorders w) :
    ∃ entries', w = .object entries' ∧ SameFields entries entries' := by
  obtain ⟨entries', rfl, hnodup', hlookup⟩ := h.object hnodup
  exact ⟨entries', rfl, sameFields_of_lookup hnodup' hlookup⟩

namespace SameFields

variable {entries entries' : List (String × Value)} {α : Type} {decode : Decoder α} {name : String}

theorem present (h : SameFields entries entries') {v : Value} {a : α}
    (hlookup : entries.lookup name = some v) (hv : decode.Yields v a) :
    field? name decode entries' = .ok (some a) :=
  h name decode (some a) (hlookup ▸ .some hv)

theorem optional (h : SameFields entries entries') {f : α → Value} {x : Option α}
    (hlookup : entries.lookup name = x.map f)
    (hx : ∀ a ∈ x, decode.Yields (f a) a ∧ (f a).canonical ≠ .null) :
    field? name (Decoder.optional decode) entries' = .ok (x.map some) := by
  refine h name _ _ (hlookup ▸ ?_)
  cases x with
  | none => exact .none
  | some a => exact .some ((hx a rfl).1.optional (hx a rfl).2)

theorem text (h : SameFields entries entries') {t : Option String}
    (hlookup : entries.lookup name = t.map Value.string) :
    field? name (Decoder.optional Decoder.text) entries' = .ok (t.map some) :=
  h.optional hlookup fun s _ => ⟨Decoder.yields_text s, by simp [Value.canonical]⟩

theorem extensions (h : SameFields entries entries') {e : Extensions}
    (hlookup : entries.lookup "extensions" = if e.isEmpty then none else some (.object e))
    (he : (Value.object e).isCanonical = true) :
    field? "extensions" Decoder.extensions entries' =
      .ok (if e.isEmpty then none else some e) := by
  refine h _ _ _ (hlookup ▸ ?_)
  split_ifs
  · exact .none
  · exact .some (Decoder.yields_extensions he)

end SameFields

/-! ### What is written under a name -/

theorem lookup_textField (k key : String) (t : Option String) :
    (textField key t).lookup k = if k = key then t.map Value.string else none := by
  cases t with
  | none => simp [textField]
  | some s => simp [textField, Json.lookup_cons_eq]

theorem lookup_field (k : String) (e : Extensions) :
    (Extensions.field e).lookup k =
      if k = "extensions" then if e.isEmpty then none else some (.object e) else none := by
  unfold Extensions.field
  split_ifs <;> simp_all [Json.lookup_cons_eq]

theorem map_fst_textField_sublist (key : String) (t : Option String) :
    ((textField key t).map Prod.fst).Sublist [key] := by
  cases t <;> simp [textField]

theorem map_fst_field_sublist (e : Extensions) :
    ((Extensions.field e).map Prod.fst).Sublist ["extensions"] := by
  unfold Extensions.field
  split_ifs <;> simp

/-! ### Written forms yield what is written -/

theorem getD_map_some {α : Type} (x : Option α) : (x.map some).getD none = x := by
  cases x <;> rfl

theorem getD_extensions (e : Extensions) : (if e.isEmpty then none else some e).getD [] = e := by
  cases e <;> rfl

theorem Form.decode_object_eq_ok_iff {σ α : Type} (form : Form σ α)
    (entries : List (String × Value)) (a : α) :
    form.decode (.object entries) = .ok a ↔
      ∃ d, form.setAll entries = .ok d ∧ form.finish d = .ok a := by
  rw [Form.decode, bind_eq_ok_iff]

namespace Property

theorem nodup_keys (p : Property) : (([
    ("name", .string p.name), ("schema", p.schema.toValue), ("required", .bool p.required),
    ("nullable", .bool p.nullable), ("inline", .bool p.isInline)] ++
    textField "description" p.description ++
    Extensions.field p.extensions).map Prod.fst).Nodup := by
  have hkeys := ((List.Sublist.refl ["name", "schema", "required", "nullable", "inline"]).append
    (map_fst_textField_sublist "description" p.description)).append
      (map_fst_field_sublist p.extensions)
  rw [List.map_append, List.map_append]
  exact hkeys.nodup (by decide)

theorem yields_toValue (p : Property) (h : (Value.object p.extensions).isCanonical = true) :
    form.decode.Yields p.toValue p := by
  intro w hw
  obtain ⟨entries, rfl, hfields⟩ := sameFields_of_reorders p.nodup_keys hw
  rw [Form.decode_object_eq_ok_iff]
  refine ⟨⟨some p.name, some p.schema, some p.required, some p.nullable, some p.isInline,
    p.description.map some, if p.extensions.isEmpty then none else some p.extensions⟩, ?_, ?_⟩
  · rw [PropertyDraft.setAll_eq_ok_iff]
    exact {
      name := hfields.present rfl (Decoder.yields_text _)
      schema := hfields.present rfl (Decoder.yields_nodeId _)
      required := hfields.present rfl (Decoder.yields_flag _)
      nullable := hfields.present rfl (Decoder.yields_flag _)
      isInline := hfields.present rfl (Decoder.yields_flag _)
      description := hfields.text (by
        simp [List.lookup_append, Json.lookup_cons_eq, lookup_textField, lookup_field])
      extensions := hfields.extensions (by
        simp [List.lookup_append, Json.lookup_cons_eq, lookup_textField, lookup_field]) h }
  · change Except.ok (Property.mk _ _ _ _ _ ((p.description.map some).getD none)
      ((if p.extensions.isEmpty then none else some p.extensions).getD [])) = _
    rw [getD_map_some, getD_extensions]
    rfl

end Property

theorem Mapping.yields_toValue (m : Mapping) : form.decode.Yields m.toValue m := by
  intro w hw
  obtain ⟨entries, rfl, hfields⟩ := sameFields_of_reorders (by simp) hw
  rw [Form.decode_object_eq_ok_iff]
  refine ⟨⟨some m.value, some m.target⟩, ?_, rfl⟩
  rw [MappingDraft.setAll_eq_ok_iff]
  exact ⟨hfields.present rfl (Decoder.yields_text _), hfields.present rfl (Decoder.yields_nodeId _)⟩

theorem Discriminator.yields_toValue (d : Discriminator) : form.decode.Yields d.toValue d := by
  intro w hw
  obtain ⟨entries, rfl, hfields⟩ := sameFields_of_reorders (by simp) hw
  rw [Form.decode_object_eq_ok_iff]
  refine ⟨⟨some d.propertyName, some d.mapping⟩, ?_, rfl⟩
  rw [DiscriminatorDraft.setAll_eq_ok_iff]
  exact ⟨hfields.present rfl (Decoder.yields_text _),
    hfields.present rfl (Decoder.Yields.list fun m _ => m.yields_toValue)⟩

theorem Primitive.yields_name (p : Primitive) : Primitive.decode.Yields (.string p.name) p :=
  Decoder.yields_of_plain (by cases p <;> rfl) (by simp) (by simp)

namespace Kind

/-- The kind without what it holds. -/
def tag : Kind → KindTag
  | .object _ => .object
  | .enumeration _ => .enumeration
  | .union _ => .union
  | .primitive _ _ => .primitive
  | .array _ => .array
  | .reference _ => .reference

/-- Whether annotations and literals are in canonical form. -/
def isCanonical : Kind → Bool
  | .object shape => shape.properties.all fun p => (Value.object p.extensions).isCanonical
  | .enumeration values => values.all Value.isCanonical
  | _ => true

theorem yields_tag (kind : Kind) {entries entries' : List (String × Value)}
    (h : SameFields entries entries')
    (hlookup : entries.lookup "kind" = kind.fields.lookup "kind") :
    field? "kind" KindTag.decode entries' = .ok (some kind.tag) := by
  have hyields : ∀ name tag, KindTag.decode (.string name) = .ok tag →
      KindTag.decode.Yields (.string name) tag :=
    fun name tag h => Decoder.yields_of_plain h (by simp) (by simp)
  cases kind <;> exact h.present hlookup (hyields _ _ rfl)

/-- The fields of a kind are read back, wherever they stand among those of a node. -/
theorem decodeFields_eq_ok (kind : Kind) {entries entries' : List (String × Value)}
    (h : SameFields entries entries')
    (hlookup : ∀ name ∉ NodeDraft.ownKeys, entries.lookup name = kind.fields.lookup name)
    (hcanonical : kind.isCanonical = true) : kind.tag.decodeFields entries' = .ok kind := by
  cases kind with
  | object shape =>
    have hproperties : ∀ p ∈ shape.properties, (Value.object p.extensions).isCanonical = true := by
      simpa [isCanonical] using hcanonical
    have hread : ShapeDraft.Reads entries' ⟨some shape.properties, shape.base.map some,
        some shape.isAbstract, shape.discriminator.map some⟩ := {
      properties := h.present (hlookup _ (by decide))
        (Decoder.Yields.list fun p hp => p.yields_toValue (hproperties p hp))
      base := by
        refine h.optional ((hlookup _ (by decide)).trans ?_) fun base _ =>
          ⟨Decoder.yields_nodeId base, by simp [NodeId.toValue, Value.int, Value.canonical]⟩
        cases hb : shape.base <;> cases hd : shape.discriminator <;>
          simp [fields, Shape.fields, Json.lookup_cons_eq, hb, hd]
      isAbstract := by
        refine h.present ((hlookup _ (by decide)).trans ?_) (Decoder.yields_flag _)
        cases hb : shape.base <;> simp [fields, Shape.fields, Json.lookup_cons_eq, hb]
      discriminator := by
        refine h.optional ((hlookup _ (by decide)).trans ?_) fun d _ =>
          ⟨d.yields_toValue, by simp [Discriminator.toValue, Value.canonical]⟩
        cases hb : shape.base <;> cases hd : shape.discriminator <;>
          simp [fields, Shape.fields, Json.lookup_cons_eq, hb, hd] }
    rw [tag, KindTag.decodeFields, (ShapeDraft.foldlM_set_eq_ok_iff _ _).2 hread]
    simp [bind, Except.bind, pure, Except.pure, ShapeDraft.finish, getD_map_some]
  | enumeration values =>
    have hvalues : ∀ v ∈ values, v.isCanonical = true := by simpa [isCanonical] using hcanonical
    have hlist : (Decoder.list Decoder.literal).Yields (.array values) values := by
      simpa using Decoder.Yields.list (f := id) fun v hv => Decoder.yields_literal (hvalues v hv)
    rw [tag, KindTag.decodeFields, h.present (hlookup "values" (by decide)) hlist]
    rfl
  | union variants =>
    have hlist := Decoder.Yields.list fun id (_ : id ∈ variants) => Decoder.yields_nodeId id
    rw [tag, KindTag.decodeFields, h.present (hlookup "variants" (by decide)) hlist]
    rfl
  | primitive type format =>
    have hformat : entries.lookup "format" = format.map Value.string := by
      rw [hlookup "format" (by decide)]
      simp [fields, Json.lookup_cons_eq, lookup_textField]
    have hread : field? "type" Primitive.decode entries' = .ok (some type) ∧
        field? "format" (Decoder.optional Decoder.text) entries' = .ok (format.map some) :=
      ⟨h.present (hlookup "type" (by decide)) type.yields_name, h.text hformat⟩
    rw [tag, KindTag.decodeFields,
      (PrimitiveDraft.foldlM_set_eq_ok_iff _ ⟨some type, format.map some⟩).2 hread]
    simp [bind, Except.bind, pure, Except.pure, Decoder.need, getD_map_some]
  | array items =>
    rw [tag, KindTag.decodeFields,
      h.present (hlookup "items" (by decide)) (Decoder.yields_nodeId items)]
    rfl
  | reference target =>
    rw [tag, KindTag.decodeFields,
      h.present (hlookup "target" (by decide)) (Decoder.yields_nodeId target)]
    rfl

/-- The keys of kinds. -/
def keys : List String := ["kind", "properties", "base", "abstract", "discriminator", "values",
  "variants", "type", "format", "items", "target"]

theorem map_fst_fields_sublist (kind : Kind) : (kind.fields.map Prod.fst).Sublist keys := by
  cases kind with
  | object shape =>
    cases hb : shape.base <;> cases hd : shape.discriminator <;>
      simp [fields, Shape.fields, keys, hb, hd]
  | primitive type format =>
    cases format with
    | none => simp [fields, textField, keys]
    | some f =>
      change List.Sublist ["kind", "type", "format"] keys
      decide
  | _ => simp [fields, keys]

end Kind

namespace Node

/-- Whether annotations and literals are in canonical form. -/
def isCanonical (node : Node) : Bool :=
  (Value.object node.extensions).isCanonical && node.kind.isCanonical

theorem nodup_keys (node : Node) :
    ((textField "nameHint" node.nameHint ++ textField "description" node.description ++
      Extensions.field node.extensions ++ node.kind.fields).map Prod.fst).Nodup := by
  have hkeys := (((map_fst_textField_sublist "nameHint" node.nameHint).append
    (map_fst_textField_sublist "description" node.description)).append
      (map_fst_field_sublist node.extensions)).append node.kind.map_fst_fields_sublist
  rw [List.map_append, List.map_append, List.map_append]
  exact hkeys.nodup (by decide)

theorem yields_toValue (node : Node) (h : node.isCanonical = true) :
    Decoder.Yields Node.ofValue node.toValue node := by
  obtain ⟨hextensions, hkind⟩ := (Bool.and_eq_true _ _).mp h
  intro w hw
  obtain ⟨entries, rfl, hfields⟩ := sameFields_of_reorders node.nodup_keys hw
  have hown : ∀ name ∈ NodeDraft.ownKeys, node.kind.fields.lookup name = none := by
    intro name hname
    have hkeys : ∀ name ∈ NodeDraft.ownKeys, name ∉ Kind.keys := by decide
    exact Json.lookup_eq_none_of_not_mem fun hmem =>
      hkeys name hname (node.kind.map_fst_fields_sublist.subset hmem)
  rw [Node.ofValue_object_eq_ok_iff]
  refine ⟨⟨node.nameHint.map some, node.description.map some,
    if node.extensions.isEmpty then none else some node.extensions,
    entries.filter NodeDraft.isOther⟩, node.kind.tag, ?_, ?_, ?_, ?_, ?_, ?_⟩
  · exact {
      nameHint := hfields.text (by
        simp [List.lookup_append, lookup_textField, lookup_field, hown "nameHint" (by decide)])
      description := hfields.text (by
        simp [List.lookup_append, lookup_textField, lookup_field, hown "description" (by decide)])
      extensions := hfields.extensions (by
        simp [List.lookup_append, lookup_textField, lookup_field, hown "extensions" (by decide)])
        hextensions
      others := rfl }
  · refine node.kind.yields_tag hfields ?_
    simp [List.lookup_append, lookup_textField, lookup_field]
  · refine node.kind.decodeFields_eq_ok hfields (fun name hname => ?_) hkind
    simp only [NodeDraft.ownKeys, List.mem_cons, List.not_mem_nil, or_false, not_or] at hname
    simp [List.lookup_append, lookup_textField, lookup_field, hname]
  · exact (getD_map_some _).symm
  · exact (getD_map_some _).symm
  · exact (getD_extensions _).symm

end Node

namespace Graph

/-- Whether annotations and literals are in canonical form. -/
def isCanonical (g : Graph) : Bool := g.nodes.toList.all Node.isCanonical

theorem yields_toValue (g : Graph) (h : g.isCanonical = true) :
    Decoder.Yields ofValue g.toValue g := by
  have hnodes : ∀ node ∈ g.nodes.toList, node.isCanonical = true := List.all_eq_true.1 h
  intro w hw
  obtain ⟨entries, rfl, hfields⟩ := sameFields_of_reorders (by simp) hw
  rw [ofValue, Form.decode_object_eq_ok_iff]
  refine ⟨⟨some g.root, some g.nodes.toList⟩, ?_, rfl⟩
  rw [GraphDraft.setAll_eq_ok_iff]
  exact ⟨hfields.present rfl (Decoder.yields_nodeId _), hfields.present rfl
    (Decoder.Yields.list fun node hnode => node.yields_toValue (hnodes node hnode))⟩

end Graph

/-! ### Written forms have distinct keys -/

theorem hasDistinctKeys_textField {key : String} {t : Option String} :
    ∀ e ∈ textField key t, e.2.hasDistinctKeys = true := by
  cases t <;> simp [textField]

theorem hasDistinctKeys_field {e : Extensions} (h : (Value.object e).isCanonical = true) :
    ∀ entry ∈ Extensions.field e, entry.2.hasDistinctKeys = true := by
  unfold Extensions.field
  split_ifs
  · simp
  · intro entry hentry
    rw [List.mem_singleton.1 hentry]
    exact Value.hasDistinctKeys_of_isCanonical _ h

@[simp] theorem NodeId.hasDistinctKeys_toValue (id : NodeId) :
    id.toValue.hasDistinctKeys = true := rfl

theorem Property.hasDistinctKeys_toValue (p : Property)
    (h : (Value.object p.extensions).isCanonical = true) : p.toValue.hasDistinctKeys = true := by
  rw [toValue, Value.hasDistinctKeys_object]
  refine ⟨p.nodup_keys, fun e he => ?_⟩
  rcases List.mem_append.1 he with he | he
  · rcases List.mem_append.1 he with he | he
    · simp only [List.mem_cons, List.not_mem_nil, or_false] at he
      rcases he with rfl | rfl | rfl | rfl | rfl <;> rfl
    · exact hasDistinctKeys_textField e he
  · exact hasDistinctKeys_field h e he

theorem Discriminator.hasDistinctKeys_toValue (d : Discriminator) :
    d.toValue.hasDistinctKeys = true := by
  have hmapping : ∀ m ∈ d.mapping, m.toValue.hasDistinctKeys = true := fun m _ => rfl
  simpa [toValue] using hmapping

theorem Kind.hasDistinctKeys_fields (kind : Kind) (h : kind.isCanonical = true) :
    ∀ e ∈ kind.fields, e.2.hasDistinctKeys = true := by
  cases kind with
  | object shape =>
    have hproperties : ∀ p ∈ shape.properties, p.toValue.hasDistinctKeys = true := fun p hp =>
      p.hasDistinctKeys_toValue ((List.all_eq_true.1 h) p hp)
    have hbase : ∀ e ∈ shape.base.toList.map (fun base => ("base", NodeId.toValue base)),
        e.2.hasDistinctKeys = true := by
      cases shape.base <;> simp
    have hdiscriminator : ∀ e ∈ shape.discriminator.toList.map
        (fun d => ("discriminator", d.toValue)), e.2.hasDistinctKeys = true := by
      cases shape.discriminator <;> simp [Discriminator.hasDistinctKeys_toValue]
    simp only [fields, Shape.fields, List.mem_cons, List.mem_append, List.not_mem_nil, or_false]
    rintro e (rfl | ((rfl | he) | rfl) | he)
    · rfl
    · simpa using hproperties
    · exact hbase e he
    · rfl
    · exact hdiscriminator e he
  | enumeration values =>
    have hvalues : ∀ v ∈ values, v.hasDistinctKeys = true := fun v hv =>
      v.hasDistinctKeys_of_isCanonical ((List.all_eq_true.1 h) v hv)
    simpa [fields] using hvalues
  | primitive type format => cases format <;> simp [fields, textField]
  | _ => simp [fields]

theorem Node.hasDistinctKeys_toValue (node : Node) (h : node.isCanonical = true) :
    node.toValue.hasDistinctKeys = true := by
  obtain ⟨hextensions, hkind⟩ := (Bool.and_eq_true _ _).mp h
  rw [toValue, Value.hasDistinctKeys_object]
  refine ⟨node.nodup_keys, fun e he => ?_⟩
  simp only [List.mem_append] at he
  rcases he with ((he | he) | he) | he
  · exact hasDistinctKeys_textField e he
  · exact hasDistinctKeys_textField e he
  · exact hasDistinctKeys_field hextensions e he
  · exact node.kind.hasDistinctKeys_fields hkind e he

theorem Graph.hasDistinctKeys_toValue (g : Graph) (h : g.isCanonical = true) :
    g.toValue.hasDistinctKeys = true := by
  have hnodes : ∀ node ∈ g.nodes.toList, node.toValue.hasDistinctKeys = true := fun node hnode =>
    node.hasDistinctKeys_toValue ((List.all_eq_true.1 h) node hnode)
  simpa [toValue] using hnodes

/-! ### What is read is canonical -/

theorem Decoder.isCanonical_of_extensions {v : Value} {e : Extensions}
    (h : Decoder.extensions v = .ok e) : (Value.object e).isCanonical = true := by
  cases v with
  | object entries =>
    obtain rfl := Except.ok.inj h
    have hcanonical := (Value.object entries).isCanonical_canonical
    rwa [Value.canonical] at hcanonical
  | _ => cases h

theorem Decoder.isCanonical_of_field? {entries : List (String × Value)} {x : Option Extensions}
    (h : field? "extensions" Decoder.extensions entries = .ok x) :
    (Value.object (x.getD [])).isCanonical = true := by
  cases x with
  | none => rfl
  | some e =>
    obtain ⟨v, hv⟩ := Decoder.exists_of_field?_eq_ok h
    exact Decoder.isCanonical_of_extensions hv

theorem Decoder.exists_of_mem_list {α : Type} {decode : Decoder α} {v : Value} {as : List α} {a : α}
    (h : Decoder.list decode v = .ok as) (ha : a ∈ as) : ∃ w, decode w = .ok a := by
  cases v with
  | array items =>
    rw [Decoder.list, mapM_eq_ok_iff] at h
    obtain ⟨hlength, hget⟩ := List.forall₂_iff_get.1 h
    obtain ⟨i, rfl⟩ := List.mem_iff_get.1 ha
    exact ⟨_, hget i (by omega) i.isLt⟩
  | _ => cases h

/-- A record that is read comes from fields, whichever way it is written. -/
theorem Form.exists_of_decode_eq_ok {σ α : Type} {form : Form σ α} {v : Value} {a : α}
    (h : form.decode v = .ok a) :
    ∃ entries d, form.setAll entries = .ok d ∧ form.finish d = .ok a := by
  cases v with
  | object entries => exact ⟨entries, (form.decode_object_eq_ok_iff entries a).1 h⟩
  | array items =>
    obtain ⟨d, hd, h⟩ := bind_eq_ok_iff.1 h
    refine ⟨_, d, hd, ?_⟩
    cases hfinish : form.finish d with
    | error e =>
      simp only [hfinish] at h
      split_ifs at h <;> cases h
    | ok b =>
      simp only [hfinish] at h
      split_ifs at h <;> cases h
      rfl
  | _ => cases h

theorem Decoder.exists_of_mem_getD {α : Type} {decode : Decoder α} {name : String}
    {entries : List (String × Value)} {x : Option (List α)} {a : α}
    (h : field? name (Decoder.list decode) entries = .ok x) (ha : a ∈ x.getD []) :
    ∃ w, decode w = .ok a := by
  cases x with
  | none => cases ha
  | some as =>
    obtain ⟨v, hv⟩ := Decoder.exists_of_field?_eq_ok h
    exact Decoder.exists_of_mem_list hv ha

theorem Property.isCanonical_of_decode {v : Value} {p : Property} (h : form.decode v = .ok p) :
    (Value.object p.extensions).isCanonical = true := by
  obtain ⟨entries, d, hset, hfinish⟩ := Form.exists_of_decode_eq_ok h
  obtain ⟨name, -, hfinish⟩ := bind_eq_ok_iff.1 hfinish
  obtain ⟨schema, -, hfinish⟩ := bind_eq_ok_iff.1 hfinish
  obtain rfl := Except.ok.inj hfinish
  exact Decoder.isCanonical_of_field? ((PropertyDraft.setAll_eq_ok_iff _ _).1 hset).extensions

theorem Kind.isCanonical_of_decodeFields {entries : List (String × Value)} {tag : KindTag}
    {kind : Kind} (h : tag.decodeFields entries = .ok kind) : kind.isCanonical = true := by
  cases tag with
  | object =>
    obtain ⟨d, hd, h⟩ := bind_eq_ok_iff.1 h
    obtain rfl := Except.ok.inj h
    refine List.all_eq_true.2 fun p hp => ?_
    obtain ⟨w, hw⟩ :=
      Decoder.exists_of_mem_getD ((ShapeDraft.foldlM_set_eq_ok_iff _ _).1 hd).properties hp
    exact Property.isCanonical_of_decode hw
  | enumeration =>
    obtain ⟨values, hvalues, h⟩ := bind_eq_ok_iff.1 h
    obtain rfl := Except.ok.inj h
    refine List.all_eq_true.2 fun v hv => ?_
    obtain ⟨w, hw⟩ := Decoder.exists_of_mem_getD hvalues hv
    obtain rfl := Except.ok.inj hw
    exact w.isCanonical_canonical
  | union =>
    obtain ⟨variants, -, h⟩ := bind_eq_ok_iff.1 h
    obtain rfl := Except.ok.inj h
    rfl
  | primitive =>
    obtain ⟨d, -, h⟩ := bind_eq_ok_iff.1 h
    obtain ⟨type, -, h⟩ := bind_eq_ok_iff.1 h
    obtain rfl := Except.ok.inj h
    rfl
  | array | reference =>
    obtain ⟨found, -, h⟩ := bind_eq_ok_iff.1 h
    obtain ⟨id, -, h⟩ := bind_eq_ok_iff.1 h
    obtain rfl := Except.ok.inj h
    rfl

theorem Node.isCanonical_of_ofValue {v : Value} {node : Node} (h : Node.ofValue v = .ok node) :
    node.isCanonical = true := by
  cases v with
  | object entries =>
    obtain ⟨d, tag, hd, -, hfields, -, -, hextensions⟩ := (Node.ofValue_object_eq_ok_iff _ _).1 h
    have hown := Decoder.isCanonical_of_field? hd.extensions
    rw [isCanonical, hextensions, hown, Kind.isCanonical_of_decodeFields hfields]
    rfl
  | _ => cases h

/-- Graphs that are read have annotations and literals in canonical form. -/
theorem Graph.isCanonical_of_ofValue {v : Value} {g : Graph} (h : Graph.ofValue v = .ok g) :
    g.isCanonical = true := by
  obtain ⟨entries, d, hset, hfinish⟩ := Form.exists_of_decode_eq_ok h
  obtain ⟨-, hnodes⟩ := (GraphDraft.setAll_eq_ok_iff _ _).1 hset
  obtain ⟨root, -, hfinish⟩ := bind_eq_ok_iff.1 hfinish
  obtain ⟨nodes, hneed, hfinish⟩ := bind_eq_ok_iff.1 hfinish
  obtain rfl := Except.ok.inj hfinish
  refine List.all_eq_true.2 fun node hnode => ?_
  have hmem : node ∈ d.nodes.getD [] := by
    cases hd : d.nodes with
    | none => rw [hd] at hneed; cases hneed
    | some as =>
      rw [hd] at hneed
      obtain rfl := Except.ok.inj hneed
      exact hnode
  obtain ⟨w, hw⟩ := Decoder.exists_of_mem_getD hnodes hmem
  exact Node.isCanonical_of_ofValue hw

/-! ### Loading -/

theorem Graph.checked_eq_ok_iff {g g' : Graph} :
    g.checked = .ok g' ↔ g' = g ∧ g.validate = .ok () := by
  unfold checked
  cases g.validate with
  | ok u => simp [eq_comm]
  | error e => simp

theorem Graph.checked_eq_error_iff {g : Graph} {e : LoadError} :
    g.checked = .error e ↔ ∃ error, g.validate = .error error ∧ e = .graph error := by
  unfold checked
  cases g.validate with
  | ok u => simp
  | error e => simp [eq_comm]

/-- **Graphs are read back from their JSON form.** The graphs that can be read are those with
annotations and literals in canonical form. Such a graph is read from the form it is written in,
and from that form with the entries of its objects in any other order, as the sorted one; loading
gives the graph if it is sound and its own error otherwise. -/
theorem graph_round_trip (g : Graph) :
    (g.isCanonical = true ↔ ∃ v, Graph.ofValue v = .ok g) ∧
    (g.isCanonical = true →
      Graph.ofValue g.toValue = .ok g ∧ Graph.ofValue g.toValue.canonical = .ok g ∧
      g.toValue.Reorders g.toValue ∧ g.toValue.Reorders g.toValue.canonical ∧
      ∀ v, g.toValue.Reorders v → Graph.ofValue v = .ok g ∧
        (∀ g', Graph.loadValue v = .ok g' ↔ g' = g ∧ g.validate = .ok ()) ∧
        ∀ e, Graph.loadValue v = .error e ↔
          ∃ error, g.validate = .error error ∧ e = .graph error) := by
  have hload : ∀ v, Graph.ofValue v = .ok g → Graph.loadValue v = g.checked := by
    intro v hv
    rw [Graph.loadValue, hv]
  have hsame : g.isCanonical = true → g.toValue.Reorders g.toValue := fun h =>
    Value.Reorders.refl (g.hasDistinctKeys_toValue h)
  refine ⟨⟨fun h => ⟨g.toValue, g.yields_toValue h _ (hsame h)⟩, ?_⟩, fun h => ?_⟩
  · rintro ⟨v, hv⟩
    exact Graph.isCanonical_of_ofValue hv
  · have hread := g.yields_toValue h
    refine ⟨hread _ (hsame h), hread _ g.toValue.reorders_canonical, hsame h,
      g.toValue.reorders_canonical, fun v hv => ⟨hread v hv, fun g' => ?_, fun e => ?_⟩⟩
    · rw [hload v (hread v hv), Graph.checked_eq_ok_iff]
    · rw [hload v (hread v hv), Graph.checked_eq_error_iff]

/-- A graph of all kinds: texts that are empty rather than absent, annotations with objects in
them, and a pointer as large as they come. -/
def ledger : Graph where
  root := 0
  nodes := #[
    { kind := .object {
        properties := [⟨"total", 3, true, false, true, some "", [("name", .string "Sum"),
          ("scale", .object [("max", .number (.int 9)), ("min", .null)])]⟩]
        base := some 1
        isAbstract := true
        discriminator := some ⟨"type", [⟨"", 5⟩]⟩ }
      nameHint := some ""
      description := none
      extensions := [("", .array [.object []]), ("typeName", .string "Ledger")] },
    Node.ofKind (.enumeration [.null, .object [("a", .bool true), ("b", .string "")]]),
    { Node.ofKind (.union []) with description := some "" },
    Node.ofKind (.primitive .any (some "")), Node.ofKind (.primitive .number none),
    Node.ofKind (.array 18446744073709551615), Node.ofKind (.reference 0)]

/-- The ledger is read back, although it is not sound; loading says why. -/
theorem graph_round_trip_ledger :
    ledger.isCanonical = true ∧ Graph.ofValue ledger.toValue = .ok ledger ∧
      Graph.loadValue ledger.toValue =
        .error (.graph (.undefinedReference 5 18446744073709551615)) ∧
      Graph.loadValue ledger.toValue.canonical =
        .error (.graph (.undefinedReference 5 18446744073709551615)) := by
  have hcanonical : ledger.isCanonical = true := by decide +kernel
  have hvalidate : ledger.validate = .error (.undefinedReference 5 18446744073709551615) := by
    decide +kernel
  obtain ⟨hread, -, hsame, hsorted, hall⟩ := (graph_round_trip ledger).2 hcanonical
  exact ⟨hcanonical, hread, ((hall _ hsame).2.2 _).2 ⟨_, hvalidate, rfl⟩,
    ((hall _ hsorted).2.2 _).2 ⟨_, hvalidate, rfl⟩⟩

end Schema

end ContractGen
