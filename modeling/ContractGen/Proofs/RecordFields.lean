import ContractGen.Proofs.CanonicalValues
import ContractGen.Proofs.Outcomes
import ContractGen.Schema.Decode
import Mathlib.Data.List.Induction

/-!
# Records field by field

A record is read in one pass over its entries, which fills a draft as fields come. What the draft
holds in the end can be said field by field, with no mention of the others: under each name it has
what `Decoder.field?` finds there. So the order of entries does not matter to a record that can be
read, and of entries with distinct keys each field is read from the one that has its name
(`Decoder.field?_of_nodup`).

The fields of a node's own are read before those of its kind, and the latter from the other entries
only; `Node.ofValue_object_eq_ok_iff` says that the division makes no difference.
-/

namespace ContractGen

namespace Schema

open Json (Value Mismatch)

namespace Decoder

variable {α : Type} {name : String} {decode : Decoder α}

/-- What one entry adds to a field of which `old` was read before. -/
def step (name : String) (decode : Decoder α) (old : Option α) (entry : String × Value) :
    Except Mismatch (Option α) :=
  if entry.1 = name then once name old decode entry.2 else .ok old

theorem field?_nil : field? name decode [] = .ok none := rfl

theorem field?_snoc_eq_ok_iff {entries : List (String × Value)} {entry : String × Value}
    {x : Option α} : field? name decode (entries ++ [entry]) = .ok x ↔
      ∃ old, field? name decode entries = .ok old ∧ step name decode old entry = .ok x := by
  rw [field?, List.foldlM_append, bind_eq_ok_iff]
  simp only [List.foldlM_cons, List.foldlM_nil, bind_pure]
  rfl

theorem field?_of_not_mem {entries : List (String × Value)} (h : name ∉ entries.map Prod.fst) :
    field? name decode entries = .ok none := by
  induction entries using List.reverseRecOn with
  | nil => rfl
  | append_singleton entries entry ih =>
    simp only [List.map_append, List.map_cons, List.map_nil, List.mem_append, List.mem_singleton,
      not_or] at h
    exact field?_snoc_eq_ok_iff.2 ⟨none, ih h.1, if_neg fun heq => h.2 heq.symm⟩

theorem field?_of_nodup {entries : List (String × Value)} (h : (entries.map Prod.fst).Nodup)
    {x : Option α} (hx : Option.Rel (fun v a => decode v = .ok a) (entries.lookup name) x) :
    field? name decode entries = .ok x := by
  induction entries using List.reverseRecOn with
  | nil => cases hx; rfl
  | append_singleton entries entry ih =>
    rw [List.map_append, List.map_singleton, List.nodup_append] at h
    obtain ⟨hentries, -, hfresh⟩ := h
    rw [List.lookup_append, Json.lookup_cons_eq] at hx
    by_cases hname : entry.1 = name
    · have hnot : name ∉ entries.map Prod.fst := fun hmem =>
        hfresh name hmem entry.1 (List.mem_singleton_self _) hname.symm
      rw [Json.lookup_eq_none_of_not_mem hnot, if_pos hname.symm, Option.none_or] at hx
      refine field?_snoc_eq_ok_iff.2 ⟨none, field?_of_not_mem hnot, ?_⟩
      cases hx with
      | some hv => simp [step, hname, once, hv, Except.map]
    · rw [if_neg (Ne.symm hname), List.lookup_nil, Option.or_none] at hx
      exact field?_snoc_eq_ok_iff.2 ⟨x, ih hentries hx, if_neg hname⟩

theorem lookup_of_field?_eq_ok {entries : List (String × Value)} (h : (entries.map Prod.fst).Nodup)
    {x : Option α} (hx : field? name decode entries = .ok x) :
    Option.Rel (fun v a => decode v = .ok a) (entries.lookup name) x := by
  induction entries using List.reverseRecOn generalizing x with
  | nil =>
    obtain rfl := Except.ok.inj hx
    exact .none
  | append_singleton entries entry ih =>
    rw [List.map_append, List.map_singleton, List.nodup_append] at h
    obtain ⟨hentries, -, hfresh⟩ := h
    obtain ⟨old, hold, hstep⟩ := field?_snoc_eq_ok_iff.1 hx
    rw [List.lookup_append, Json.lookup_cons_eq]
    by_cases hname : entry.1 = name
    · have hnot : name ∉ entries.map Prod.fst := fun hmem =>
        hfresh name hmem entry.1 (List.mem_singleton_self _) hname.symm
      obtain rfl : none = old := Except.ok.inj ((field?_of_not_mem hnot).symm.trans hold)
      rw [Json.lookup_eq_none_of_not_mem hnot, if_pos hname.symm, Option.none_or]
      rw [step, if_pos hname] at hstep
      obtain ⟨a, ha, rfl⟩ := map_eq_ok_iff.1 hstep
      exact .some ha
    · rw [if_neg (Ne.symm hname), List.lookup_nil, Option.or_none]
      rw [step, if_neg hname] at hstep
      obtain rfl := Except.ok.inj hstep
      exact ih hentries hold

theorem exists_of_field?_eq_ok {entries : List (String × Value)} {a : α}
    (h : field? name decode entries = .ok (some a)) : ∃ v, decode v = .ok a := by
  induction entries using List.reverseRecOn with
  | nil => cases h
  | append_singleton entries entry ih =>
    obtain ⟨old, hold, hstep⟩ := field?_snoc_eq_ok_iff.1 h
    unfold step once at hstep
    split_ifs at hstep with hname hsome
    · cases hv : decode entry.2 with
      | error e => rw [hv] at hstep; cases hstep
      | ok b =>
        rw [hv] at hstep
        cases hstep
        exact ⟨entry.2, hv⟩
    · cases hstep
      exact ih hold

end Decoder

open Decoder (field? step)

theorem foldlM_eq_ok_iff {σ : Type} {set : σ → String × Value → Except Mismatch σ} {blank : σ}
    {R : List (String × Value) → σ → Prop} (hnil : ∀ d, R [] d ↔ d = blank)
    (hsnoc : ∀ entries entry d', R (entries ++ [entry]) d' ↔
      ∃ d, R entries d ∧ set d entry = .ok d')
    (entries : List (String × Value)) (d : σ) :
    entries.foldlM set blank = .ok d ↔ R entries d := by
  induction entries using List.reverseRecOn generalizing d with
  | nil =>
    rw [hnil, List.foldlM_nil]
    exact ⟨fun h => (Except.ok.inj h).symm, fun h => congrArg Except.ok h.symm⟩
  | append_singleton entries entry ih =>
    rw [hsnoc, List.foldlM_append, bind_eq_ok_iff]
    simp only [List.foldlM_cons, List.foldlM_nil, bind_pure, ih]

theorem foldlM_two_eq_ok_iff {σ α β : Type} {set : σ → String × Value → Except Mismatch σ}
    {blank : σ} (make : Option α → Option β → σ) {first : σ → Option α} {second : σ → Option β}
    {nameA nameB : String} {decodeA : Decoder α} {decodeB : Decoder β}
    (hmake : ∀ d, make (first d) (second d) = d)
    (hfirst : ∀ x y, first (make x y) = x) (hsecond : ∀ x y, second (make x y) = y)
    (hblank : blank = make none none)
    (hset : ∀ d entry d', set d entry = .ok d' ↔
      step nameA decodeA (first d) entry = .ok (first d') ∧
      step nameB decodeB (second d) entry = .ok (second d'))
    (entries : List (String × Value)) (d : σ) :
    entries.foldlM set blank = .ok d ↔
      field? nameA decodeA entries = .ok (first d) ∧
      field? nameB decodeB entries = .ok (second d) := by
  refine foldlM_eq_ok_iff (R := fun entries d => field? nameA decodeA entries = .ok (first d) ∧
    field? nameB decodeB entries = .ok (second d)) (fun d => ?_) (fun entries entry d' => ?_)
    entries d
  · simp only [Decoder.field?_nil, Except.ok.injEq, hblank]
    constructor
    · rintro ⟨h₁, h₂⟩
      rw [h₁, h₂, hmake]
    · rintro rfl
      exact ⟨(hfirst _ _).symm, (hsecond _ _).symm⟩
  · simp only [Decoder.field?_snoc_eq_ok_iff, hset]
    constructor
    · rintro ⟨⟨x, h₁, s₁⟩, y, h₂, s₂⟩
      refine ⟨make x y, ⟨?_, ?_⟩, ?_, ?_⟩ <;> simpa only [hfirst, hsecond]
    · rintro ⟨d, ⟨h₁, h₂⟩, s₁, s₂⟩
      exact ⟨⟨_, h₁, s₁⟩, _, h₂, s₂⟩

/-! ### Properties, mappings and discriminators -/

namespace PropertyDraft

theorem set_eq_ok_iff (d d' : PropertyDraft) (key : String) (v : Value) :
    d.set key v = .ok d' ↔
      step "name" Decoder.text d.name (key, v) = .ok d'.name ∧
      step "schema" Decoder.nodeId d.schema (key, v) = .ok d'.schema ∧
      step "required" Decoder.flag d.required (key, v) = .ok d'.required ∧
      step "nullable" Decoder.flag d.nullable (key, v) = .ok d'.nullable ∧
      step "inline" Decoder.flag d.isInline (key, v) = .ok d'.isInline ∧
      step "description" (Decoder.optional Decoder.text) d.description (key, v) =
        .ok d'.description ∧
      step "extensions" Decoder.extensions d.extensions (key, v) = .ok d'.extensions := by
  cases d
  cases d'
  unfold set
  split <;> simp_all [step, bind_eq_ok_iff, pure, Except.pure] <;> tauto

/-- What is read of a property, field by field. -/
@[mk_iff]
structure Reads (entries : List (String × Value)) (d : PropertyDraft) : Prop where
  name : field? "name" Decoder.text entries = .ok d.name
  schema : field? "schema" Decoder.nodeId entries = .ok d.schema
  required : field? "required" Decoder.flag entries = .ok d.required
  nullable : field? "nullable" Decoder.flag entries = .ok d.nullable
  isInline : field? "inline" Decoder.flag entries = .ok d.isInline
  description : field? "description" (Decoder.optional Decoder.text) entries = .ok d.description
  extensions : field? "extensions" Decoder.extensions entries = .ok d.extensions

theorem setAll_eq_ok_iff (entries : List (String × Value)) (d : PropertyDraft) :
    Property.form.setAll entries = .ok d ↔ Reads entries d := by
  refine foldlM_eq_ok_iff (fun d => ?_) (fun entries entry d' => ?_) entries d
  · cases d
    simp [reads_iff, Decoder.field?_nil, Property.form, eq_comm]
  · simp only [reads_iff, Decoder.field?_snoc_eq_ok_iff, Property.form, set_eq_ok_iff]
    constructor
    · rintro ⟨⟨_, h₁, s₁⟩, ⟨_, h₂, s₂⟩, ⟨_, h₃, s₃⟩, ⟨_, h₄, s₄⟩, ⟨_, h₅, s₅⟩, ⟨_, h₆, s₆⟩,
        _, h₇, s₇⟩
      exact ⟨⟨_, _, _, _, _, _, _⟩, ⟨h₁, h₂, h₃, h₄, h₅, h₆, h₇⟩, s₁, s₂, s₃, s₄, s₅, s₆, s₇⟩
    · rintro ⟨d, ⟨h₁, h₂, h₃, h₄, h₅, h₆, h₇⟩, s₁, s₂, s₃, s₄, s₅, s₆, s₇⟩
      exact ⟨⟨_, h₁, s₁⟩, ⟨_, h₂, s₂⟩, ⟨_, h₃, s₃⟩, ⟨_, h₄, s₄⟩, ⟨_, h₅, s₅⟩, ⟨_, h₆, s₆⟩,
        _, h₇, s₇⟩

end PropertyDraft

theorem MappingDraft.setAll_eq_ok_iff (entries : List (String × Value)) (d : MappingDraft) :
    Mapping.form.setAll entries = .ok d ↔
      field? "value" Decoder.text entries = .ok d.value ∧
      field? "target" Decoder.nodeId entries = .ok d.target := by
  refine foldlM_two_eq_ok_iff MappingDraft.mk (fun _ => rfl) (fun _ _ => rfl) (fun _ _ => rfl) rfl
    (fun d entry d' => ?_) entries d
  obtain ⟨key, v⟩ := entry
  cases d
  cases d'
  simp only [Mapping.form]
  unfold MappingDraft.set
  split <;> simp_all [step, bind_eq_ok_iff, pure, Except.pure, and_comm]

theorem DiscriminatorDraft.setAll_eq_ok_iff (entries : List (String × Value))
    (d : DiscriminatorDraft) :
    Discriminator.form.setAll entries = .ok d ↔
      field? "propertyName" Decoder.text entries = .ok d.propertyName ∧
      field? "mapping" (Decoder.list Mapping.form.decode) entries = .ok d.mapping := by
  refine foldlM_two_eq_ok_iff DiscriminatorDraft.mk (fun _ => rfl) (fun _ _ => rfl)
    (fun _ _ => rfl) rfl (fun d entry d' => ?_) entries d
  obtain ⟨key, v⟩ := entry
  cases d
  cases d'
  simp only [Discriminator.form]
  unfold DiscriminatorDraft.set
  split <;> simp_all [step, bind_eq_ok_iff, pure, Except.pure, and_comm]

theorem GraphDraft.setAll_eq_ok_iff (entries : List (String × Value)) (d : GraphDraft) :
    Graph.form.setAll entries = .ok d ↔
      field? "root" Decoder.nodeId entries = .ok d.root ∧
      field? "nodes" (Decoder.list Node.ofValue) entries = .ok d.nodes := by
  refine foldlM_two_eq_ok_iff GraphDraft.mk (fun _ => rfl) (fun _ _ => rfl) (fun _ _ => rfl) rfl
    (fun d entry d' => ?_) entries d
  obtain ⟨key, v⟩ := entry
  cases d
  cases d'
  simp only [Graph.form]
  unfold GraphDraft.set
  split <;> simp_all [step, bind_eq_ok_iff, pure, Except.pure, and_comm]

/-! ### Kinds -/

theorem PrimitiveDraft.foldlM_set_eq_ok_iff (entries : List (String × Value)) (d : PrimitiveDraft) :
    entries.foldlM (fun d entry => PrimitiveDraft.set d entry.1 entry.2) {} = .ok d ↔
      field? "type" Primitive.decode entries = .ok d.type ∧
      field? "format" (Decoder.optional Decoder.text) entries = .ok d.format := by
  refine foldlM_two_eq_ok_iff PrimitiveDraft.mk (fun _ => rfl) (fun _ _ => rfl) (fun _ _ => rfl)
    rfl (fun d entry d' => ?_) entries d
  obtain ⟨key, v⟩ := entry
  cases d
  cases d'
  unfold PrimitiveDraft.set
  split <;> simp_all [step, bind_eq_ok_iff, pure, Except.pure, and_comm]

namespace ShapeDraft

theorem set_eq_ok_iff (d d' : ShapeDraft) (key : String) (v : Value) :
    d.set key v = .ok d' ↔
      step "properties" (Decoder.list Property.form.decode) d.properties (key, v) =
        .ok d'.properties ∧
      step "base" (Decoder.optional Decoder.nodeId) d.base (key, v) = .ok d'.base ∧
      step "abstract" Decoder.flag d.isAbstract (key, v) = .ok d'.isAbstract ∧
      step "discriminator" (Decoder.optional Discriminator.form.decode) d.discriminator (key, v) =
        .ok d'.discriminator := by
  cases d
  cases d'
  unfold set
  split <;> simp_all [step, bind_eq_ok_iff, pure, Except.pure] <;> tauto

/-- What is read of an object node, field by field. -/
@[mk_iff]
structure Reads (entries : List (String × Value)) (d : ShapeDraft) : Prop where
  properties : field? "properties" (Decoder.list Property.form.decode) entries = .ok d.properties
  base : field? "base" (Decoder.optional Decoder.nodeId) entries = .ok d.base
  isAbstract : field? "abstract" Decoder.flag entries = .ok d.isAbstract
  discriminator : field? "discriminator" (Decoder.optional Discriminator.form.decode) entries =
    .ok d.discriminator

theorem foldlM_set_eq_ok_iff (entries : List (String × Value)) (d : ShapeDraft) :
    entries.foldlM (fun d entry => set d entry.1 entry.2) {} = .ok d ↔ Reads entries d := by
  refine foldlM_eq_ok_iff (fun d => ?_) (fun entries entry d' => ?_) entries d
  · cases d
    simp [reads_iff, Decoder.field?_nil, eq_comm]
  · simp only [reads_iff, Decoder.field?_snoc_eq_ok_iff, set_eq_ok_iff]
    constructor
    · rintro ⟨⟨_, h₁, s₁⟩, ⟨_, h₂, s₂⟩, ⟨_, h₃, s₃⟩, _, h₄, s₄⟩
      exact ⟨⟨_, _, _, _⟩, ⟨h₁, h₂, h₃, h₄⟩, s₁, s₂, s₃, s₄⟩
    · rintro ⟨d, ⟨h₁, h₂, h₃, h₄⟩, s₁, s₂, s₃, s₄⟩
      exact ⟨⟨_, h₁, s₁⟩, ⟨_, h₂, s₂⟩, ⟨_, h₃, s₃⟩, _, h₄, s₄⟩

end ShapeDraft

theorem foldlM_filter_of_skips {σ : Type} {set : σ → String × Value → Except Mismatch σ}
    {keep : String × Value → Bool} {entries : List (String × Value)}
    (h : ∀ entry ∈ entries, keep entry = false → ∀ d, set d entry = .ok d) (blank : σ) :
    (entries.filter keep).foldlM set blank = entries.foldlM set blank := by
  induction entries generalizing blank with
  | nil => rfl
  | cons entry rest ih =>
    have hrest := ih fun entry hmem => h entry (List.mem_cons_of_mem _ hmem)
    cases hkeep : keep entry with
    | true =>
      rw [List.filter_cons_of_pos hkeep, List.foldlM_cons, List.foldlM_cons]
      exact bind_congr fun d => hrest d
    | false =>
      rw [List.filter_cons_of_neg (by simp [hkeep]), List.foldlM_cons,
        h entry List.mem_cons_self hkeep blank]
      exact hrest blank

theorem Decoder.field?_filter {α : Type} {name : String} {decode : Decoder α}
    {keep : String × Value → Bool} {entries : List (String × Value)}
    (h : ∀ entry ∈ entries, keep entry = false → entry.1 ≠ name) :
    field? name decode (entries.filter keep) = field? name decode entries :=
  foldlM_filter_of_skips (fun entry hmem hkeep _ => if_neg (h entry hmem hkeep)) none

/-! ### Nodes -/

/-- The fields of every node. -/
def NodeDraft.ownKeys : List String := ["nameHint", "description", "extensions"]

/-- The fields of a kind are read from the entries that are neither its name nor fields of every
node. -/
theorem KindTag.decodeFields_filter {keep : String × Value → Bool}
    {entries : List (String × Value)}
    (h : ∀ entry ∈ entries, keep entry = false → entry.1 ∈ "kind" :: NodeDraft.ownKeys)
    (tag : KindTag) : tag.decodeFields (entries.filter keep) = tag.decodeFields entries := by
  have hfield : ∀ {α : Type} {decode : Decoder α} (name : String),
      name ∉ "kind" :: NodeDraft.ownKeys →
      field? name decode (entries.filter keep) = field? name decode entries := by
    intro α decode name hname
    exact Decoder.field?_filter fun entry hmem hkeep heq => hname (heq ▸ h entry hmem hkeep)
  have hskip : ∀ entry ∈ entries, keep entry = false →
      entry.1 = "kind" ∨ entry.1 = "nameHint" ∨ entry.1 = "description" ∨
        entry.1 = "extensions" := by
    intro entry hmem hkeep
    simpa [NodeDraft.ownKeys] using h entry hmem hkeep
  cases tag with
  | object =>
    rw [decodeFields, decodeFields, foldlM_filter_of_skips]
    intro entry hmem hkeep d
    rcases hskip entry hmem hkeep with heq | heq | heq | heq <;> rw [heq] <;> rfl
  | primitive =>
    rw [decodeFields, decodeFields, foldlM_filter_of_skips]
    intro entry hmem hkeep d
    rcases hskip entry hmem hkeep with heq | heq | heq | heq <;> rw [heq] <;> rfl
  | enumeration => rw [decodeFields, decodeFields, hfield "values" (by decide)]
  | union => rw [decodeFields, decodeFields, hfield "variants" (by decide)]
  | array => rw [decodeFields, decodeFields, hfield "items" (by decide)]
  | reference => rw [decodeFields, decodeFields, hfield "target" (by decide)]

namespace NodeDraft

/-- Whether an entry is left to the kind of a node. -/
def isOther (entry : String × Value) : Bool := !ownKeys.contains entry.1

theorem set_eq_ok_iff (d d' : NodeDraft) (key : String) (v : Value) :
    d.set key v = .ok d' ↔
      step "nameHint" (Decoder.optional Decoder.text) d.nameHint (key, v) = .ok d'.nameHint ∧
      step "description" (Decoder.optional Decoder.text) d.description (key, v) =
        .ok d'.description ∧
      step "extensions" Decoder.extensions d.extensions (key, v) = .ok d'.extensions ∧
      d'.others = d.others ++ [(key, v)].filter isOther := by
  cases d
  cases d'
  unfold set
  split <;> simp_all [step, bind_eq_ok_iff, pure, Except.pure, isOther, ownKeys] <;> tauto

/-- What is read of a node, field by field. -/
@[mk_iff]
structure Reads (entries : List (String × Value)) (d : NodeDraft) : Prop where
  nameHint : field? "nameHint" (Decoder.optional Decoder.text) entries = .ok d.nameHint
  description : field? "description" (Decoder.optional Decoder.text) entries = .ok d.description
  extensions : field? "extensions" Decoder.extensions entries = .ok d.extensions
  others : d.others = entries.filter isOther

theorem foldlM_set_eq_ok_iff (entries : List (String × Value)) (d : NodeDraft) :
    entries.foldlM (fun d entry => set d entry.1 entry.2) {} = .ok d ↔ Reads entries d := by
  refine foldlM_eq_ok_iff (fun d => ?_) (fun entries entry d' => ?_) entries d
  · cases d
    simp [reads_iff, Decoder.field?_nil, eq_comm]
  · simp only [reads_iff, Decoder.field?_snoc_eq_ok_iff, set_eq_ok_iff, List.filter_append]
    constructor
    · rintro ⟨⟨_, h₁, s₁⟩, ⟨_, h₂, s₂⟩, ⟨_, h₃, s₃⟩, h₄⟩
      exact ⟨⟨_, _, _, _⟩, ⟨h₁, h₂, h₃, rfl⟩, s₁, s₂, s₃, h₄⟩
    · rintro ⟨d, ⟨h₁, h₂, h₃, h₄⟩, s₁, s₂, s₃, s₄⟩
      exact ⟨⟨_, h₁, s₁⟩, ⟨_, h₂, s₂⟩, ⟨_, h₃, s₃⟩, h₄ ▸ s₄⟩

end NodeDraft

theorem Kind.decode_filter_isOther (entries : List (String × Value)) (kind : Kind) :
    Kind.decode (entries.filter NodeDraft.isOther) = .ok kind ↔
      ∃ tag, field? "kind" KindTag.decode entries = .ok (some tag) ∧
        tag.decodeFields entries = .ok kind := by
  have hown : ∀ entry : String × Value, NodeDraft.isOther entry = false →
      entry.1 ∈ NodeDraft.ownKeys := fun entry h => by simpa [NodeDraft.isOther] using h
  have hkind : field? "kind" KindTag.decode (entries.filter NodeDraft.isOther) =
      field? "kind" KindTag.decode entries := by
    refine Decoder.field?_filter fun entry _ h heq => ?_
    exact absurd (heq ▸ hown entry h) (by decide)
  have hfields : ∀ tag : KindTag, tag.decodeFields ((entries.filter NodeDraft.isOther).filter
      fun entry => entry.1 != "kind") = tag.decodeFields entries := by
    intro tag
    rw [tag.decodeFields_filter fun entry _ h => ?_, tag.decodeFields_filter fun entry _ h => ?_]
    · exact List.mem_cons_of_mem _ (hown entry h)
    · simpa using Or.inl h
  simp only [Kind.decode, bind_eq_ok_iff, hkind, hfields]
  constructor
  · rintro ⟨found, hfound, tag, hneed, hdecode⟩
    cases found with
    | none => cases hneed
    | some found =>
      obtain rfl : found = tag := Except.ok.inj hneed
      exact ⟨found, hfound, hdecode⟩
  · rintro ⟨tag, hfound, hdecode⟩
    exact ⟨some tag, hfound, tag, rfl, hdecode⟩

/-- A node is read field by field, from all of its entries. -/
theorem Node.ofValue_object_eq_ok_iff (entries : List (String × Value)) (node : Node) :
    Node.ofValue (.object entries) = .ok node ↔
      ∃ d tag, NodeDraft.Reads entries d ∧ field? "kind" KindTag.decode entries = .ok (some tag) ∧
        tag.decodeFields entries = .ok node.kind ∧ node.nameHint = d.nameHint.getD none ∧
        node.description = d.description.getD none ∧ node.extensions = d.extensions.getD [] := by
  simp only [Node.ofValue, bind_eq_ok_iff, NodeDraft.foldlM_set_eq_ok_iff, NodeDraft.finish]
  constructor
  · rintro ⟨d, hd, kind, hkind, hnode⟩
    rw [hd.others, Kind.decode_filter_isOther] at hkind
    obtain ⟨tag, htag, hfields⟩ := hkind
    cases hnode
    exact ⟨d, tag, hd, htag, hfields, rfl, rfl, rfl⟩
  · rintro ⟨d, tag, hd, htag, hfields, hhint, hdescription, hextensions⟩
    refine ⟨d, hd, node.kind, ?_, ?_⟩
    · rw [hd.others, Kind.decode_filter_isOther]
      exact ⟨tag, htag, hfields⟩
    · rw [← hhint, ← hdescription, ← hextensions]
      rfl

end Schema

end ContractGen
