import ContractGen.Proofs.RoundTrip

/-!
# The order of entries

A document whose objects have no key twice is read in the same way whatever order their entries
stand in. A decoder for which this holds is *orderless* (`Decoder.Orderless`); the decoders of
numbers, texts and flags are, since they refuse arrays and objects, and the others are if those of
their parts are. For records this rests on what is read field by field: of entries that `KeepFields`
each field can be read again. `Graph.ofValue_eq_ok_iff_of_reorders` is the result for graphs.

Distinct keys are needed. The last of two entries with one key goes into annotations and literals,
and which that is depends on the order; and a record that has a field twice is refused.
-/

namespace ContractGen

open Json (Value)

/-! ### Objects with at most one entry -/

namespace Json.Value.Reorders

theorem eq_nil {w : Value} (h : (Value.object []).Reorders w) : w = .object [] := by
  obtain ⟨entries, rfl, -, hlookup⟩ := h.object (by simp)
  cases entries with
  | nil => rfl
  | cons e rest =>
    have he := hlookup e.1
    rw [List.lookup_nil, lookup_cons_eq, if_pos rfl] at he
    cases he

theorem eq_singleton {key : String} {v w : Value} (h : (Value.object [(key, v)]).Reorders w) :
    ∃ v', w = .object [(key, v')] ∧ v.Reorders v' := by
  obtain ⟨entries, rfl, hnodup, hlookup⟩ := h.object (by simp)
  have hkeys : ∀ e ∈ entries, e.1 = key := by
    intro e he
    by_contra hne
    have hnone := hlookup e.1
    rw [lookup_cons_eq, if_neg hne, List.lookup_nil] at hnone
    have hfound : entries.lookup e.1 = none := by
      generalize entries.lookup e.1 = found at hnone
      cases hnone
      rfl
    simpa using List.lookup_eq_none_iff.1 hfound e he
  have hkey := hlookup key
  rw [lookup_cons_eq, if_pos rfl] at hkey
  cases entries with
  | nil => cases hkey
  | cons e rest =>
    obtain ⟨k, v'⟩ := e
    obtain rfl : k = key := hkeys _ List.mem_cons_self
    obtain rfl : rest = [] := by
      refine List.eq_nil_iff_forall_not_mem.2 fun e he => ?_
      refine (List.nodup_cons.1 hnodup).1 (List.mem_map.2 ⟨e, he, ?_⟩)
      exact hkeys e (List.mem_cons_of_mem _ he)
    rw [lookup_cons_eq, if_pos rfl] at hkey
    cases hkey with
    | some hv => exact ⟨v', rfl, hv⟩

end Json.Value.Reorders

namespace Schema

open Decoder (field?)

namespace Decoder

variable {α : Type} {decode : Decoder α}

/-- What is read of a document without repeated keys is read of it in every order. -/
def Orderless (decode : Decoder α) : Prop :=
  ∀ v a, v.hasDistinctKeys = true → decode v = .ok a → decode.Yields v a

theorem orderless_of_plain (harray : ∀ items a, decode (.array items) ≠ .ok a)
    (hobject : ∀ entries a, decode (.object entries) ≠ .ok a) : decode.Orderless := by
  intro v a _ h
  refine yields_of_plain h ?_ ?_
  · rintro items rfl
    exact harray items a h
  · rintro entries rfl
    exact hobject entries a h

theorem orderless_text : text.Orderless := orderless_of_plain (by simp [text]) (by simp [text])

theorem orderless_flag : flag.Orderless := orderless_of_plain (by simp [flag]) (by simp [flag])

theorem orderless_nodeId : nodeId.Orderless :=
  orderless_of_plain (by simp [nodeId]) (by simp [nodeId])

theorem orderless_tag : Orderless KindTag.decode :=
  orderless_of_plain (by simp [KindTag.decode]) (by simp [KindTag.decode])

theorem orderless_literal : literal.Orderless := by
  intro v a _ h w hw
  obtain rfl := Except.ok.inj h
  rw [literal, hw.2]

theorem orderless_extensions : extensions.Orderless := by
  intro v e _ h w hw
  cases v with
  | object entries =>
    have hcanonical := hw.2
    rw [← h]
    cases w with
    | object entries' =>
      rw [Value.canonical, Value.canonical] at hcanonical
      rw [extensions, extensions, Value.object.inj hcanonical]
    | _ => simp [Value.canonical] at hcanonical
  | _ => cases h

theorem Orderless.optional (h : decode.Orderless) : (Decoder.optional decode).Orderless := by
  intro v x hv hx
  by_cases hnull : v = .null
  · subst hnull
    exact yields_of_plain hx (by simp) (by simp)
  · have hread : (decode v).map some = .ok x := by
      unfold Decoder.optional at hx
      split at hx
      · exact absurd rfl hnull
      · exact hx
    obtain ⟨a, ha, rfl⟩ := map_eq_ok_iff.1 hread
    refine (h v a hv ha).optional ?_
    cases v <;> simp_all [Value.canonical]

theorem Orderless.list (h : decode.Orderless) : (Decoder.list decode).Orderless := by
  intro v as hv has w hw
  cases v with
  | array items =>
    obtain ⟨items', rfl, hitems⟩ := hw.array
    rw [Value.hasDistinctKeys_array] at hv
    rw [Decoder.list, mapM_eq_ok_iff, List.forall₂_iff_get] at has ⊢
    rw [List.forall₂_iff_get] at hitems
    refine ⟨hitems.1.symm.trans has.1, fun i hi hi' => ?_⟩
    have hread := has.2 i (hitems.1 ▸ hi) hi'
    exact h _ _ (hv _ (List.get_mem _ _)) hread _ (hitems.2 i _ hi)
  | _ => cases has

end Decoder

/-- A scalar that is read is a name, or such a name as a key with nothing under it. -/
theorem Primitive.decode_object_eq_ok_iff (entries : List (String × Value)) (p : Primitive) :
    Primitive.decode (.object entries) = .ok p ↔ ∃ key v, entries = [(key, v)] ∧
      Primitive.ofName key = .ok p ∧ (v = .null ∨ v = .object []) := by
  constructor
  · intro h
    obtain - | ⟨⟨key, v⟩, - | ⟨e, rest⟩⟩ := entries
    · cases h
    · obtain ⟨q, hname, hv⟩ := bind_eq_ok_iff.1 h
      split at hv
      · exact ⟨key, _, rfl, (Except.ok.inj hv) ▸ hname, .inl rfl⟩
      · exact ⟨key, _, rfl, (Except.ok.inj hv) ▸ hname, .inr rfl⟩
      · cases hv
    · cases h
  · rintro ⟨key, v, rfl, hname, rfl | rfl⟩ <;> simp [Primitive.decode, hname]

theorem Primitive.orderless_decode : Decoder.Orderless Primitive.decode := by
  intro v p _ hp
  cases v with
  | object entries =>
    intro w hw
    obtain ⟨key, v, rfl, hname, hv⟩ := (Primitive.decode_object_eq_ok_iff entries p).1 hp
    obtain ⟨v', rfl, hv'⟩ := hw.eq_singleton
    refine (Primitive.decode_object_eq_ok_iff _ p).2 ⟨key, v', rfl, hname, ?_⟩
    rcases hv with rfl | rfl
    · exact .inl (hv'.eq_of_plain (by simp) (by simp))
    · exact .inr hv'.eq_nil
  | array items => cases hp
  | _ => exact Decoder.yields_of_plain hp (by simp) (by simp)

/-! ### Records -/

/-- What is read of a field of the first entries is read of the second. -/
def KeepFields (entries entries' : List (String × Value)) : Prop :=
  ∀ {α : Type} {decode : Decoder α} (name : String) {x : Option α}, decode.Orderless →
    field? name decode entries = .ok x → field? name decode entries' = .ok x

theorem SameFields.keepFields {entries entries' : List (String × Value)}
    (h : SameFields entries entries') (hnodup : (entries.map Prod.fst).Nodup)
    (hvalues : ∀ e ∈ entries, e.2.hasDistinctKeys = true) : KeepFields entries entries' := by
  intro α decode name x hdecode hx
  have hlookup := Decoder.lookup_of_field?_eq_ok hnodup hx
  refine h name decode x ?_
  cases hfound : entries.lookup name with
  | none =>
    rw [hfound] at hlookup
    cases hlookup
    exact .none
  | some v =>
    rw [hfound] at hlookup
    cases hlookup with
    | some ha => exact .some (hdecode v _ (hvalues _ (Json.mem_of_lookup hfound)) ha)

theorem nodup_fst_zip {fields : List String} (h : fields.Nodup) (items : List Value) :
    ((fields.zip items).map Prod.fst).Nodup := by
  induction fields generalizing items with
  | nil => simp
  | cons field fields ih =>
    cases items with
    | nil => simp
    | cons v items =>
      obtain ⟨hfresh, hfields⟩ := List.nodup_cons.1 h
      rw [List.zip_cons_cons, List.map_cons, List.nodup_cons]
      refine ⟨fun hmem => ?_, ih hfields items⟩
      obtain ⟨e, he, rfl⟩ := List.mem_map.1 hmem
      exact hfresh (List.of_mem_zip he).1

theorem lookup_zip_reorders {items items' : List Value}
    (h : List.Forall₂ Value.Reorders items items') (fields : List String) (k : String) :
    Option.Rel Value.Reorders ((fields.zip items).lookup k) ((fields.zip items').lookup k) := by
  induction h generalizing fields with
  | nil => simp
  | cons hv _ ih =>
    cases fields with
    | nil => exact .none
    | cons field fields =>
      rw [List.zip_cons_cons, List.zip_cons_cons, Json.lookup_cons_eq, Json.lookup_cons_eq]
      split_ifs
      · exact .some hv
      · exact ih fields

namespace Form

variable {σ α : Type} {form : Form σ α}

theorem decode_array_eq_ok_iff (form : Form σ α) (items : List Value) (a : α) :
    form.decode (.array items) = .ok a ↔
      ∃ d, form.setAll (form.fields.zip items) = .ok d ∧ form.finish d = .ok a ∧
        form.needed ≤ items.length ∧ items.length ≤ form.fields.length := by
  rw [Form.decode, bind_eq_ok_iff]
  refine exists_congr fun d => and_congr_right fun _ => ?_
  by_cases hshort : items.length < form.needed
  · simp only [hshort, ↓reduceIte, throw, throwThe, MonadExceptOf.throw, bind, Except.bind,
      reduceCtorEq, false_iff]
    omega
  · cases hfinish : form.finish d with
    | error e => simp [hshort, bind, Except.bind]
    | ok b =>
      by_cases hlong : form.fields.length < items.length
      · simp [hshort, hlong, throw, throwThe, MonadExceptOf.throw, bind, Except.bind]
      · have hfits : form.needed ≤ items.length ∧ items.length ≤ form.fields.length := by omega
        simp [hshort, hlong, hfits, bind, Except.bind, pure, Except.pure]

/-- **Records are read in every order of entries**, if their fields are. -/
theorem orderless (hfields : form.fields.Nodup)
    (hset : ∀ entries entries' d, KeepFields entries entries' → form.setAll entries = .ok d →
      form.setAll entries' = .ok d) : form.decode.Orderless := by
  intro v a hv ha w hw
  cases v with
  | object entries =>
    obtain ⟨hnodup, hvalues⟩ := (Value.hasDistinctKeys_object entries).1 hv
    obtain ⟨entries', rfl, hsame⟩ := sameFields_of_reorders hnodup hw
    obtain ⟨d, hd, hfinish⟩ := (form.decode_object_eq_ok_iff entries a).1 ha
    rw [form.decode_object_eq_ok_iff]
    exact ⟨d, hset _ _ d (hsame.keepFields hnodup hvalues) hd, hfinish⟩
  | array items =>
    rw [Value.hasDistinctKeys_array] at hv
    obtain ⟨items', rfl, hitems⟩ := hw.array
    obtain ⟨d, hd, hfinish, hneeded, hlength⟩ := (form.decode_array_eq_ok_iff items a).1 ha
    have hsame : SameFields (form.fields.zip items) (form.fields.zip items') :=
      sameFields_of_lookup (nodup_fst_zip hfields items') (lookup_zip_reorders hitems form.fields)
    have hkeep : KeepFields (form.fields.zip items) (form.fields.zip items') :=
      hsame.keepFields (nodup_fst_zip hfields items) fun e he => hv e.2 (List.of_mem_zip he).2
    rw [form.decode_array_eq_ok_iff, ← hitems.length_eq]
    exact ⟨d, hset _ _ d hkeep hd, hfinish, hneeded, hlength⟩
  | _ => cases ha

end Form

theorem Property.orderless_decode : Property.form.decode.Orderless := by
  refine Form.orderless (by decide) fun entries entries' d h hd => ?_
  rw [PropertyDraft.setAll_eq_ok_iff] at hd ⊢
  exact {
    name := h _ Decoder.orderless_text hd.name
    schema := h _ Decoder.orderless_nodeId hd.schema
    required := h _ Decoder.orderless_flag hd.required
    nullable := h _ Decoder.orderless_flag hd.nullable
    isInline := h _ Decoder.orderless_flag hd.isInline
    description := h _ Decoder.orderless_text.optional hd.description
    extensions := h _ Decoder.orderless_extensions hd.extensions }

theorem Mapping.orderless_decode : Mapping.form.decode.Orderless := by
  refine Form.orderless (by decide) fun entries entries' d h hd => ?_
  rw [MappingDraft.setAll_eq_ok_iff] at hd ⊢
  exact ⟨h _ Decoder.orderless_text hd.1, h _ Decoder.orderless_nodeId hd.2⟩

theorem Discriminator.orderless_decode : Discriminator.form.decode.Orderless := by
  refine Form.orderless (by decide) fun entries entries' d h hd => ?_
  rw [DiscriminatorDraft.setAll_eq_ok_iff] at hd ⊢
  exact ⟨h _ Decoder.orderless_text hd.1, h _ Mapping.orderless_decode.list hd.2⟩

/-! ### Nodes and graphs -/

/-- The fields of a kind are read again. -/
theorem KeepFields.decodeFields {entries entries' : List (String × Value)} {tag : KindTag}
    {kind : Kind} (h : KeepFields entries entries') (hkind : tag.decodeFields entries = .ok kind) :
    tag.decodeFields entries' = .ok kind := by
  cases tag with
  | object =>
    obtain ⟨d, hd, hkind⟩ := bind_eq_ok_iff.1 hkind
    rw [ShapeDraft.foldlM_set_eq_ok_iff] at hd
    refine bind_eq_ok_iff.2 ⟨d, (ShapeDraft.foldlM_set_eq_ok_iff _ _).2 ?_, hkind⟩
    exact {
      properties := h _ Property.orderless_decode.list hd.properties
      base := h _ Decoder.orderless_nodeId.optional hd.base
      isAbstract := h _ Decoder.orderless_flag hd.isAbstract
      discriminator := h _ Discriminator.orderless_decode.optional hd.discriminator }
  | enumeration =>
    obtain ⟨values, hvalues, hkind⟩ := bind_eq_ok_iff.1 hkind
    exact bind_eq_ok_iff.2 ⟨values, h _ Decoder.orderless_literal.list hvalues, hkind⟩
  | union =>
    obtain ⟨variants, hvariants, hkind⟩ := bind_eq_ok_iff.1 hkind
    exact bind_eq_ok_iff.2 ⟨variants, h _ Decoder.orderless_nodeId.list hvariants, hkind⟩
  | primitive =>
    obtain ⟨d, hd, hkind⟩ := bind_eq_ok_iff.1 hkind
    rw [PrimitiveDraft.foldlM_set_eq_ok_iff] at hd
    refine bind_eq_ok_iff.2 ⟨d, (PrimitiveDraft.foldlM_set_eq_ok_iff _ _).2 ?_, hkind⟩
    exact ⟨h _ Primitive.orderless_decode hd.1, h _ Decoder.orderless_text.optional hd.2⟩
  | array | reference =>
    obtain ⟨found, hfound, hkind⟩ := bind_eq_ok_iff.1 hkind
    exact bind_eq_ok_iff.2 ⟨found, h _ Decoder.orderless_nodeId hfound, hkind⟩

theorem Node.orderless_ofValue : Decoder.Orderless Node.ofValue := by
  intro v node hv hnode w hw
  cases v with
  | object entries =>
    obtain ⟨hnodup, hvalues⟩ := (Value.hasDistinctKeys_object entries).1 hv
    obtain ⟨entries', rfl, hsame⟩ := sameFields_of_reorders hnodup hw
    have hkeep : KeepFields entries entries' := hsame.keepFields hnodup hvalues
    obtain ⟨d, tag, hd, htag, hkind, hrest⟩ := (Node.ofValue_object_eq_ok_iff entries node).1 hnode
    rw [Node.ofValue_object_eq_ok_iff]
    refine ⟨{ d with others := entries'.filter NodeDraft.isOther }, tag, ?_, ?_, ?_, hrest⟩
    · exact {
        nameHint := hkeep _ Decoder.orderless_text.optional hd.nameHint
        description := hkeep _ Decoder.orderless_text.optional hd.description
        extensions := hkeep _ Decoder.orderless_extensions hd.extensions
        others := rfl }
    · exact hkeep _ Decoder.orderless_tag htag
    · exact hkeep.decodeFields hkind
  | _ => cases hnode

theorem Graph.orderless_ofValue : Decoder.Orderless Graph.ofValue := by
  refine Form.orderless (by decide) fun entries entries' d h hd => ?_
  rw [GraphDraft.setAll_eq_ok_iff] at hd ⊢
  exact ⟨h _ Decoder.orderless_nodeId hd.1, h _ Node.orderless_ofValue.list hd.2⟩

/-- **Graphs are read in every order of entries**, and refused in every order. -/
theorem Graph.ofValue_eq_ok_iff_of_reorders {v w : Value} (hv : v.hasDistinctKeys = true)
    (h : v.Reorders w) (g : Graph) : Graph.ofValue w = .ok g ↔ Graph.ofValue v = .ok g := by
  constructor
  · intro hg
    exact Graph.orderless_ofValue w g h.1 hg v ⟨hv, h.2.symm⟩
  · intro hg
    exact Graph.orderless_ofValue v g hv hg w h

end Schema

end ContractGen
