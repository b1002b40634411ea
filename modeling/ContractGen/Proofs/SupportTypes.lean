import ContractGen.Proofs.UnionTexts

/-!
# Support types

A file has the support types that its contracts need, each once, and no others. The features that
a walk records are those of its contracts (`Walk.Reached.features`), so what they ask for can be
read off the contracts, and off the models that templates are given for them. The names of support
types of unions have a backquote in them and those of utilities are reserved, so no contract has the
name of a support type.

`support_types_of_generate` puts this together.
-/

namespace ContractGen

open Schema (Graph Node NodeId)

/-! ### Names of support types -/

namespace Identifier

/-- The sign that stands between a name and a number of type parameters. -/
def HasTick (name : String) : Prop := '`' ∈ name.toList

theorem mem_guardFirst {p : Char → Bool} {c : Char} {cs : List Char} (h : c ∈ guardFirst p cs) :
    c = '_' ∨ c ∈ cs := by
  cases cs with
  | nil => simp [guardFirst] at h
  | cons d ds =>
    simp only [guardFirst] at h
    split_ifs at h
    · exact List.mem_cons.1 h
    · exact .inr h

theorem not_hasTick_of_typeName? {hint name : String} (h : typeName? hint = some name) :
    ¬ HasTick name := by
  intro htick
  rw [HasTick, (typeName?_eq_some_iff.1 h).2] at htick
  rcases mem_guardFirst htick with h | h
  · cases h
  · have hletter : Text.isAlphanumeric '`' = true := (List.mem_filter.1 h).2
    exact absurd hletter (by decide)

theorem not_hasTick_of_isFirstFree {c name : String} {taken : List String} (hc : ¬ HasTick c)
    (h : IsFirstFree c taken name) : ¬ HasTick name := by
  obtain ⟨-, rfl⟩ | ⟨-, k, -, rfl, -, -⟩ := h
  · exact hc
  · intro htick
    rcases List.mem_append.1 (by simpa [HasTick] using htick) with h | h
    · exact hc h
    · have hdigit : '`' ∈ (toString k).toList := by simpa using h
      exact not_mem_toString (by decide) k hdigit

end Identifier

open Identifier (HasTick)

theorem Walk.Reached.not_hasTick {g : Graph} {rootName : Option String} {w : Walk}
    {tasks : List Task} (h : Walk.Reached g rootName w tasks) :
    ∀ i name, w.resolver.nameOf i = some name → ¬ HasTick name :=
  h.forall_nameOf fun _ _ _ _ htext hname =>
    Identifier.not_hasTick_of_isFirstFree (Identifier.not_hasTick_of_typeName? htext) hname

namespace Support

theorem valueUnionName_eq (n : Nat) : valueUnionName n = "OneOf`" ++ toString n :=
  String.toList_injective (by simp [valueUnionName, oneOf, toString])

theorem abstractUnionName_eq (n : Nat) : abstractUnionName n = "OneOfBase`" ++ toString n :=
  String.toList_injective (by simp [abstractUnionName, oneOfBase, toString])

theorem hasTick_valueUnionName (n : Nat) : HasTick (valueUnionName n) := by
  simp [HasTick, valueUnionName_eq]

theorem hasTick_abstractUnionName (n : Nat) : HasTick (abstractUnionName n) := by
  simp [HasTick, abstractUnionName_eq]

theorem valueUnionName_injective : Function.Injective valueUnionName := fun m n h =>
  Identifier.append_toString_inj.1 (by rwa [valueUnionName_eq, valueUnionName_eq] at h)

theorem abstractUnionName_injective : Function.Injective abstractUnionName := fun m n h =>
  Identifier.append_toString_inj.1 (by rwa [abstractUnionName_eq, abstractUnionName_eq] at h)

theorem valueUnionName_ne_abstractUnionName (m n : Nat) :
    valueUnionName m ≠ abstractUnionName n := by
  intro h
  have hchars := congrArg String.toList h
  simp [valueUnionName_eq, abstractUnionName_eq] at hchars

/-- The names of all utilities, in the order of a file. -/
def utilityNames : List String :=
  [inheritanceAttribute, inheritanceConverter, dateFormatConverter, oneOfConverter]

theorem not_hasTick_of_mem_utilityNames : ∀ name ∈ utilityNames, ¬ HasTick name := by
  unfold HasTick
  decide

theorem utilityNames_subset_reserved : utilityNames ⊆ reserved := by
  decide

theorem utilities_sublist (f : Features) (hasUnions : Bool) (s : Settings) :
    ((utilities f hasUnions s).map Draft.typeName).Sublist utilityNames := by
  refine (List.filter_sublist.map _).trans ?_
  cases hi : f.inheritance <;> cases hd : f.dateFormat <;> cases hasUnions <;>
    simp [neededUtilities, utilityNames, utility, hi, hd]

theorem not_hasTick_of_mem_utilities {f : Features} {hasUnions : Bool} {s : Settings}
    {name : String} (h : name ∈ (utilities f hasUnions s).map Draft.typeName) : ¬ HasTick name :=
  not_hasTick_of_mem_utilityNames name ((utilities_sublist f hasUnions s).subset h)

theorem hasTick_of_mem_unions {f : Features} {name : String}
    (h : name ∈ f.valueUnions.map valueUnionName ++ f.abstractUnions.map abstractUnionName) :
    HasTick name := by
  rcases List.mem_append.1 h with h | h
  · obtain ⟨n, -, rfl⟩ := List.mem_map.1 h
    exact hasTick_valueUnionName n
  · obtain ⟨n, -, rfl⟩ := List.mem_map.1 h
    exact hasTick_abstractUnionName n

theorem mem_utilities {f : Features} {hasUnions : Bool} {s : Settings} {name : String} :
    name ∈ (utilities f hasUnions s).map Draft.typeName ↔
      (f.inheritance = true ∧ (name = inheritanceAttribute ∨ name = inheritanceConverter) ∨
        f.dateFormat = true ∧ name = dateFormatConverter ∨
        hasUnions = true ∧ name = oneOfConverter) ∧ s.isExcluded name = false := by
  simp only [utilities, neededUtilities, utility, List.mem_map, List.mem_filter, List.mem_append,
    List.mem_ite_nil_right, List.mem_cons, List.not_mem_nil, or_false]
  constructor
  · rintro ⟨d, ⟨(⟨hf, rfl | rfl⟩ | ⟨hf, rfl⟩) | ⟨hf, rfl⟩, hs⟩, rfl⟩
    · exact ⟨.inl ⟨hf, .inl rfl⟩, by simpa using hs⟩
    · exact ⟨.inl ⟨hf, .inr rfl⟩, by simpa using hs⟩
    · exact ⟨.inr (.inl ⟨hf, rfl⟩), by simpa using hs⟩
    · exact ⟨.inr (.inr ⟨hf, rfl⟩), by simpa using hs⟩
  · rintro ⟨⟨hf, rfl | rfl⟩ | ⟨hf, rfl⟩ | ⟨hf, rfl⟩, hs⟩
    · exact ⟨_, ⟨.inl (.inl ⟨hf, .inl rfl⟩), by simp [hs]⟩, rfl⟩
    · exact ⟨_, ⟨.inl (.inl ⟨hf, .inr rfl⟩), by simp [hs]⟩, rfl⟩
    · exact ⟨_, ⟨.inl (.inr ⟨hf, rfl⟩), by simp [hs]⟩, rfl⟩
    · exact ⟨_, ⟨.inr ⟨hf, rfl⟩, by simp [hs]⟩, rfl⟩

/-- The names of support types: those for unions in place, those for all unions, utilities. -/
theorem map_typeName_drafts (f : Features) (s : Settings) :
    (drafts f s).map Draft.typeName =
      f.valueUnions.map valueUnionName ++ f.abstractUnions.map abstractUnionName ++
        (utilities f (!(unionHelpers f).isEmpty) s).map Draft.typeName := by
  simp [drafts, unionHelpers, valueUnion, abstractUnion, Function.comp_def]

theorem nodup_drafts {f : Features} (hf : f.Ascending) (s : Settings) :
    ((drafts f s).map Draft.typeName).Nodup := by
  rw [map_typeName_drafts, List.nodup_append, List.nodup_append]
  have hlt : ∀ {ns : List Nat}, ns.Pairwise (· < ·) → ns.Nodup :=
    fun h => h.imp fun h => Nat.ne_of_lt h
  refine ⟨⟨(hlt hf.valueUnions).map valueUnionName_injective,
    (hlt hf.abstractUnions).map abstractUnionName_injective, ?_⟩, ?_, ?_⟩
  · rintro _ hv _ ha rfl
    obtain ⟨m, -, rfl⟩ := List.mem_map.1 hv
    obtain ⟨n, -, heq⟩ := List.mem_map.1 ha
    exact valueUnionName_ne_abstractUnionName m n heq.symm
  · exact (utilities_sublist f _ s).nodup (by decide)
  · rintro name hunion _ hutility rfl
    exact not_hasTick_of_mem_utilities hutility (hasTick_of_mem_unions hunion)

end Support

/-! ### Features of a walk -/

/-- **The features of a walk are those of its contracts.** -/
theorem Walk.Reached.features {g : Graph} {rootName : Option String} {w : Walk} {tasks : List Task}
    (h : Walk.Reached g rootName w tasks) :
    w.resolver.features = w.contracts.foldl Features.withContract {} := by
  refine h.induct_walk
    (P := fun w _ => w.resolver.features = w.contracts.foldl Features.withContract {}) rfl ?_
  intro w task rest w' more _ ih hvisit
  cases hvisit with
  | again _ => exact ih
  | pass _ _ _ _ => exact ih
  | fail _ _ _ => rw [resolver_report, contracts_report]; exact ih
  | declare _ _ _ hok hbuilt =>
    rw [contracts_declare, hbuilt.part.fills.contracts, List.foldl_append]
    calc _ = Features.withContract _ _ := hbuilt.features
      _ = _ := by
        rw [(Resolver.resolve_unchanged hok).1, ih]
        rfl

/-- What a plan records is what stands in its contracts. -/
theorem Plan.features_adds {g : Graph} {rootName : Option String} {p : Plan}
    (h : Plan.ofGraph g rootName = some p) :
    Features.Adds {} p.features (p.contracts.any Contract.hasHierarchy)
      (p.contracts.any Contract.hasDate)
      (p.contracts.flatMap fun c => TypeRef.aritiesAll c.types)
      (p.contracts.flatMap fun c => c.unionArity?.toList) := by
  obtain ⟨w, hw, hcontracts, -, hfeatures⟩ := Plan.reached_of_ofGraph h
  rw [hfeatures, hw.features, hcontracts]
  exact Features.adds_foldl_withContract {} w.contracts

/-! ### The support types of a file -/

/-- The names of the types of a file, in order. -/
def GeneratedFile.typeNames (f : GeneratedFile) : List String :=
  f.artifacts.map Artifact.typeName

theorem Plan.not_mem_names {g : Graph} {rootName : Option String} {p : Plan} {name : String}
    (h : Plan.ofGraph g rootName = some p) (hname : HasTick name ∨ name ∈ Support.reserved) :
    name ∉ p.contracts.map Contract.name := by
  obtain ⟨w, hw, hcontracts, -, -⟩ := Plan.reached_of_ofGraph h
  rw [hcontracts]
  intro hmem
  obtain ⟨c, hc, rfl⟩ := List.mem_map.1 hmem
  have hnode := hw.nameOf_of_mem c hc
  rcases hname with htick | hreserved
  · exact hw.not_hasTick _ _ hnode htick
  · exact hw.sound.not_reserved _ _ hnode hreserved

namespace Support

variable {f : Features} {s : Settings}

theorem hasTick_or_reserved {name : String} (h : name ∈ (drafts f s).map Draft.typeName) :
    HasTick name ∨ name ∈ reserved := by
  rw [map_typeName_drafts, List.mem_append] at h
  rcases h with h | h
  · exact .inl (hasTick_of_mem_unions h)
  · exact .inr (utilityNames_subset_reserved ((utilities_sublist f _ s).subset h))

theorem isEmpty_unionHelpers :
    (unionHelpers f).isEmpty = false ↔ ∃ n, n ∈ f.valueUnions ∨ n ∈ f.abstractUnions := by
  rw [List.isEmpty_eq_false_iff_exists_mem]
  simp only [unionHelpers, List.mem_append, List.mem_map]
  constructor
  · rintro ⟨d, ⟨n, hn, -⟩ | ⟨n, hn, -⟩⟩
    · exact ⟨n, .inl hn⟩
    · exact ⟨n, .inr hn⟩
  · rintro ⟨n, hn | hn⟩
    · exact ⟨_, .inl ⟨n, hn, rfl⟩⟩
    · exact ⟨_, .inr ⟨n, hn, rfl⟩⟩

theorem valueUnionName_mem_drafts {n : Nat} :
    valueUnionName n ∈ (drafts f s).map Draft.typeName ↔ n ∈ f.valueUnions := by
  have hutility : valueUnionName n ∉ (utilities f (!(unionHelpers f).isEmpty) s).map
      Draft.typeName := fun h => not_hasTick_of_mem_utilities h (hasTick_valueUnionName n)
  simp only [map_typeName_drafts, List.mem_append, hutility, or_false, List.mem_map,
    valueUnionName_injective.eq_iff, exists_eq_right]
  refine or_iff_left ?_
  rintro ⟨m, -, heq⟩
  exact valueUnionName_ne_abstractUnionName n m heq.symm

theorem abstractUnionName_mem_drafts {n : Nat} :
    abstractUnionName n ∈ (drafts f s).map Draft.typeName ↔ n ∈ f.abstractUnions := by
  have hutility : abstractUnionName n ∉ (utilities f (!(unionHelpers f).isEmpty) s).map
      Draft.typeName := fun h => not_hasTick_of_mem_utilities h (hasTick_abstractUnionName n)
  simp only [map_typeName_drafts, List.mem_append, hutility, or_false, List.mem_map,
    abstractUnionName_injective.eq_iff, exists_eq_right]
  refine or_iff_right ?_
  rintro ⟨m, -, heq⟩
  exact valueUnionName_ne_abstractUnionName m n heq

theorem utilityName_mem_drafts {name : String} (hname : name ∈ utilityNames) :
    name ∈ (drafts f s).map Draft.typeName ↔
      name ∈ (utilities f (!(unionHelpers f).isEmpty) s).map Draft.typeName := by
  rw [map_typeName_drafts, List.mem_append]
  exact or_iff_right fun h => not_hasTick_of_mem_utilityNames _ hname (hasTick_of_mem_unions h)

variable {ε : Type} {render : Renderer ε} {g : Graph} {p : Plan} {file : GeneratedFile}

theorem typeNames_of_mapM_render
    (h : (p.drafts s).mapM (Draft.render render) = .ok file.artifacts) :
    file.typeNames =
      p.contracts.map Contract.name ++ (drafts p.features s).map Draft.typeName := by
  rw [GeneratedFile.typeNames, Draft.map_typeName_of_mapM_render h, Plan.drafts,
    List.map_append, Plan.map_typeName_contractDrafts]

theorem mem_typeNames_iff (hp : Plan.ofGraph g s.rootTypeName = some p)
    (h : (p.drafts s).mapM (Draft.render render) = .ok file.artifacts) {name : String}
    (hname : HasTick name ∨ name ∈ reserved) :
    name ∈ file.typeNames ↔ name ∈ (drafts p.features s).map Draft.typeName := by
  rw [typeNames_of_mapM_render h, List.mem_append]
  exact or_iff_right (Plan.not_mem_names hp hname)

end Support

open Support in
/-- **A file has the support types that its contracts need, each once.** The types of a file are
its contracts, then types for unions in place and for all unions, both by ascending arity, then
utilities in a fixed order. A support type of unions is there just if some contract has a union of
that arity; a utility is there just if it is needed and not excluded. What a contract asks for is
what the model asks for that its template is given. -/
theorem support_types_of_generate {ε : Type} (render : Renderer ε) (s : Settings) (g : Graph)
    (file : GeneratedFile) (h : generate render s g = .ok file) :
    ∃ (p : Plan) (values bases : List Nat) (utilities : List String),
      Plan.ofGraph g s.rootTypeName = some p ∧
      file.typeNames = p.contracts.map Contract.name ++
        (values.map valueUnionName ++ bases.map abstractUnionName ++ utilities) ∧
      values.Pairwise (· < ·) ∧ bases.Pairwise (· < ·) ∧ utilities.Sublist utilityNames ∧
      (∀ name ∈ values.map valueUnionName ++ bases.map abstractUnionName ++ utilities,
        file.typeNames.count name = 1) ∧
      (∀ n, valueUnionName n ∈ file.typeNames ↔ ∃ c ∈ p.contracts, c.HasUnionInPlace n) ∧
      (∀ n, abstractUnionName n ∈ file.typeNames ↔
        (∃ c ∈ p.contracts, c.HasUnionInPlace n) ∨ ∃ c ∈ p.contracts, c.unionArity? = some n) ∧
      (inheritanceAttribute ∈ file.typeNames ↔
        (∃ c ∈ p.contracts, c.hasHierarchy = true) ∧ s.isExcluded inheritanceAttribute = false) ∧
      (inheritanceConverter ∈ file.typeNames ↔
        (∃ c ∈ p.contracts, c.hasHierarchy = true) ∧ s.isExcluded inheritanceConverter = false) ∧
      (dateFormatConverter ∈ file.typeNames ↔
        (∃ c ∈ p.contracts, c.hasDate = true) ∧ s.isExcluded dateFormatConverter = false) ∧
      (oneOfConverter ∈ file.typeNames ↔
        (∃ n, valueUnionName n ∈ file.typeNames ∨ abstractUnionName n ∈ file.typeNames) ∧
          s.isExcluded oneOfConverter = false) ∧
      (p.drafts s).mapM (Draft.render render) = .ok file.artifacts ∧
      ∀ c ∈ p.contracts, c.draft s ∈ p.drafts s ∧ c.AsksFor (c.draft s) := by
  obtain ⟨p, hp, hartifacts, -⟩ := generate_eq_ok h
  have hadds := Plan.features_adds hp
  have hascending : p.features.Ascending := hadds.ascending ⟨.nil, .nil⟩
  have hnames := typeNames_of_mapM_render hartifacts
  -- a support type is among the types of a file just if it is among the support types
  have hmem : ∀ {name}, HasTick name ∨ name ∈ reserved →
      (name ∈ file.typeNames ↔ name ∈ (drafts p.features s).map Draft.typeName) :=
    mem_typeNames_iff hp hartifacts
  have hutility : ∀ {name}, name ∈ utilityNames → (name ∈ file.typeNames ↔ name ∈
      (utilities p.features (!(unionHelpers p.features).isEmpty) s).map Draft.typeName) :=
    fun hname => (hmem (.inr (utilityNames_subset_reserved hname))).trans
      (utilityName_mem_drafts hname)
  have hvalue : ∀ n, valueUnionName n ∈ file.typeNames ↔ n ∈ p.features.valueUnions := fun n =>
    (hmem (.inl (hasTick_valueUnionName n))).trans valueUnionName_mem_drafts
  have habstract : ∀ n, abstractUnionName n ∈ file.typeNames ↔ n ∈ p.features.abstractUnions :=
    fun n => (hmem (.inl (hasTick_abstractUnionName n))).trans abstractUnionName_mem_drafts
  refine ⟨p, p.features.valueUnions, p.features.abstractUnions, _, hp,
    by rw [hnames, map_typeName_drafts], hascending.valueUnions, hascending.abstractUnions,
    utilities_sublist p.features _ s, ?_, ?_, ?_, ?_, ?_, ?_, ?_, hartifacts, ?_⟩
  · rw [← map_typeName_drafts]
    intro name hname
    rw [hnames, List.count_append, List.count_eq_one_of_mem (nodup_drafts hascending s) hname,
      List.count_eq_zero_of_not_mem (Plan.not_mem_names hp (hasTick_or_reserved hname))]
  · intro n
    simp [hvalue, hadds.valueUnions, TypeRef.mem_aritiesAll, Contract.HasUnionInPlace]
  · intro n
    simp [habstract, hadds.abstractUnions, TypeRef.mem_aritiesAll, Contract.HasUnionInPlace]
  · rw [hutility (by decide), mem_utilities, hadds.inheritance]
    simp [inheritanceAttribute, dateFormatConverter, oneOfConverter]
  · rw [hutility (by decide), mem_utilities, hadds.inheritance]
    simp [inheritanceConverter, dateFormatConverter, oneOfConverter]
  · rw [hutility (by decide), mem_utilities, hadds.dateFormat]
    simp [inheritanceAttribute, inheritanceConverter, dateFormatConverter, oneOfConverter]
  · rw [hutility (by decide), mem_utilities]
    simp only [hvalue, habstract, ← isEmpty_unionHelpers]
    simp [inheritanceAttribute, inheritanceConverter, dateFormatConverter, oneOfConverter]
  · intro c hc
    obtain ⟨w, hw, hcontracts, -, -⟩ := Plan.reached_of_ofGraph hp
    exact ⟨List.mem_append_left _ (List.mem_map_of_mem hc),
      Contract.asksFor_draft (hw.isLegal_types c (hcontracts ▸ hc)) s⟩

/-- An order with lines of nested unions in place, a day, a payment by a union with a name, and
a subtype. -/
def orders : Graph where
  root := 0
  nodes := #[
    { Node.ofKind (.object {
        properties := [⟨"lines", 1, true, false, false, none, []⟩,
          ⟨"day", 6, true, false, false, none, []⟩, ⟨"payment", 8, true, false, false, none, []⟩]
        base := none
        isAbstract := false
        discriminator := some ⟨"type", [⟨"express", 7⟩]⟩ }) with nameHint := some "Order" },
    Node.ofKind (.array 2), Node.ofKind (.union [3, 4]), Node.ofKind (.primitive .string none),
    Node.ofKind (.union [3, 5, 6]), Node.ofKind (.primitive .integer none),
    Node.ofKind (.primitive .string (some "date")),
    Node.ofKind (.object ⟨[], some 0, false, none⟩),
    { Node.ofKind (.union [3, 5, 3, 5]) with nameHint := some "Payment" }]

/-- The types of orders show which unions stand in them: two and three types in place, and four
types with a name. The excluded utility is left out. -/
theorem support_types_of_generate_orders :
    ∃ file p, generate blankRenderer { excluded := [Support.inheritanceConverter] } orders =
        .ok file ∧ Plan.ofGraph orders none = some p ∧
      file.typeNames = ["Order", "Payment", "Express", "OneOf`2", "OneOf`3", "OneOfBase`2",
        "OneOfBase`3", "OneOfBase`4", "JsonInheritanceAttribute", "DateFormatConverter",
        "OneOfConverter"] ∧
      (∃ c ∈ p.contracts, c.HasUnionInPlace 3) ∧ (¬ ∃ c ∈ p.contracts, c.HasUnionInPlace 4) ∧
      (∃ c ∈ p.contracts, c.unionArity? = some 4) ∧ (∃ c ∈ p.contracts, c.hasDate = true) ∧
      ∃ c ∈ p.contracts,
        ∃ text ∈ (c.draft { excluded := [Support.inheritanceConverter] }).typeTexts,
          MentionsUnion 3 text := by
  obtain ⟨file, hok⟩ : ∃ file, generate blankRenderer
      { excluded := [Support.inheritanceConverter] } orders = .ok file :=
    exists_eq_ok (by decide +kernel)
  have hnames : (generate blankRenderer { excluded := [Support.inheritanceConverter] }
      orders).toOption.map GeneratedFile.typeNames =
      some ["Order", "Payment", "Express", "OneOf`2", "OneOf`3", "OneOfBase`2", "OneOfBase`3",
        "OneOfBase`4", "JsonInheritanceAttribute", "DateFormatConverter", "OneOfConverter"] := by
    decide +kernel
  rw [hok] at hnames
  replace hnames := Option.some.inj hnames
  obtain ⟨p, _, _, _, hp, -, -, -, -, -, hvalue, habstract, -, -, hdate, -, -, hasks⟩ :=
    support_types_of_generate _ _ _ _ hok
  rw [hnames] at hvalue habstract hdate
  have hfour : ¬ ∃ c ∈ p.contracts, c.HasUnionInPlace 4 := fun h =>
    absurd ((hvalue 4).2 h) (by decide)
  obtain ⟨c, hc, hthree⟩ := (hvalue 3).1 (by decide)
  exact ⟨file, p, hok, hp, hnames, ⟨c, hc, hthree⟩, hfour,
    ((habstract 4).1 (by decide)).resolve_left hfour, (hdate.1 (by decide)).1, c, hc,
    ((hasks c hc).2.unionsInPlace 3).1 hthree⟩

end ContractGen
