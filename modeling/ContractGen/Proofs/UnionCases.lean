import ContractGen.Proofs.FreeSuffix
import ContractGen.Proofs.SupportTypes

/-!
# Cases of unions

A union that is declared as a type has one case for each of its variants. Types and names of cases
are found one after the other, and `Walk.cases_spec` says for every position what is found there. A
case gets its plain name (`Walk.plainCase`), unless a case before it has that name: so the cases
have different names. Of cases with the same plain name only the first can keep it: whether it does
or not, the name is taken for all that come after it (`Walk.plainCase_taken`).

The types of the cases stand in the model twice: case by case, and in a row as type arguments. Since
names of types are legal along a walk, the row can be read back. It would not be so for a union of
nothing, but that gets no contract (`Walk.Reached.union_ne_nil`).

`union_models` puts this together for the model that templates see.
-/

namespace ContractGen

open Schema (Graph Node NodeId)
open Contract (Case)
open Identifier (IsChosen IsFirstFree IsFreeSuffix)

namespace Walk

variable {g : Graph} {w w' : Walk} {tasks : List Task}

/-! ### Names of cases -/

/-- The plain names of the cases of a union. -/
def plainCases (g : Graph) (typeName : String) (variants : List NodeId) : List String :=
  variants.mapIdx fun index variant => plainCase g typeName variant index

/-- A plain name that stood before as a plain name is the name of a case before. -/
theorem plainCase_taken {typeName : String} {variants : List NodeId} {cs : List Case}
    (h : Walk.cases g typeName w [] 0 variants = some (w', cs, tasks)) {i : Nat} {plain : String}
    (hplain : plain ∈ (plainCases g typeName variants).take i) :
    plain ∈ (cs.take i).map Case.name := by
  obtain ⟨j, hj, hplain⟩ := List.mem_take_iff_getElem.1 hplain
  obtain ⟨hji, hj'⟩ : j < i ∧ j < variants.length := by
    simpa only [plainCases, List.length_mapIdx, Nat.lt_min] using hj
  obtain ⟨k, hk, -, hname⟩ := cases_spec h (List.getElem?_eq_getElem hj')
  obtain rfl : plainCase g typeName variants[j] (0 + j) = plain := by
    simpa [plainCases] using hplain
  rw [List.append_nil] at hname
  have hmono : (cs.take j).map Case.name ⊆ (cs.take i).map Case.name :=
    List.map_subset _ (List.take_subset_take_left cs hji.le)
  obtain ⟨-, hkept⟩ | ⟨htaken, -⟩ := hname
  · rw [← hkept]
    exact List.mem_map_of_mem (List.mem_of_getElem? ((List.getElem?_take_of_lt hji).trans hk))
  · exact hmono htaken

theorem nodup_cases {typeName : String} {variants : List NodeId} {cs : List Case}
    (h : Walk.cases g typeName w [] 0 variants = some (w', cs, tasks)) :
    (cs.map Case.name).Nodup := by
  have hfresh : ∀ i name, (cs.map Case.name)[i]? = some name →
      name ∉ (cs.map Case.name).take i ++ [] := by
    intro i name hname
    have hi : i < variants.length := by
      rw [← (cases_part h).2.2.1, ← List.length_map (f := Case.name)]
      exact (List.getElem?_eq_some_iff.1 hname).1
    obtain ⟨k, hk, -, hfirst⟩ := cases_spec h (List.getElem?_eq_getElem hi)
    obtain rfl : k.name = name := by simpa [hk] using hname
    rw [← List.map_take]
    exact hfirst.not_mem
  exact (Identifier.nodup_of_not_mem_take hfresh).1

/-! ### Contracts of unions -/

theorem Reached.union_ne_nil {rootName : Option String} (h : Reached g rootName w tasks) :
    ∀ c ∈ w.contracts, ∀ node, g.node? c.node = some node → node.kind ≠ .union [] := by
  refine h.induct_walk (P := fun w _ => ∀ c ∈ w.contracts, ∀ node, g.node? c.node = some node →
    node.kind ≠ .union []) (by simp [contracts]) ?_
  intro w task rest w' more _ ih hvisit
  cases hvisit with
  | again _ => exact ih
  | pass _ _ _ _ => exact ih
  | fail _ _ _ => rw [contracts_report]; exact ih
  | declare _ hnode hdeclares _ hbuilt =>
    intro c hc
    rw [contracts_declare, hbuilt.part.fills.contracts, List.mem_append, List.mem_singleton] at hc
    rcases hc with hold | rfl
    · exact ih c hold
    · intro node hnode' hkind
      obtain rfl := Option.some.inj (hnode.symm.trans hnode')
      simp [declares, hkind] at hdeclares

theorem Reached.unionArity_mem {rootName : Option String} (h : Reached g rootName w tasks) :
    ∀ c ∈ w.contracts, ∀ n ∈ c.unionArity?, n ∈ w.resolver.features.abstractUnions := by
  intro c hc n hn
  rw [h.features, (Features.adds_foldl_withContract {} w.contracts).abstractUnions]
  refine .inr (.inr (List.mem_flatMap.2 ⟨c, hc, ?_⟩))
  simpa using hn

end Walk

/-! ### Models -/

namespace Model.NamedUnion

/-- The names of the cases before one. -/
def namesBefore (m : NamedUnion) (i : Nat) : List String := (m.variants.take i).map Variant.caseName

/-- A model shows the variants of a union. -/
structure Shows (g : Graph) (variants : List NodeId) (m : NamedUnion) : Prop where
  /-- There are as many cases as variants. -/
  length : m.variants.length = variants.length
  /-- That is the arity. -/
  arity : m.arity = variants.length
  /-- The cases have the types of the variants, in their order. -/
  types : ∀ i variant v, variants[i]? = some variant → m.variants[i]? = some v →
    ∃ type, Walk.TypeOf g variant (Walk.caseHint g m.typeName variant i) type ∧
      v.typeName = type.text
  /-- The cases have different names. -/
  distinct : (m.variants.map Variant.caseName).Nodup
  /-- The first one with a plain name keeps it, unless a case before has it as its name. -/
  kept : ∀ i plain v, (Walk.plainCases g m.typeName variants)[i]? = some plain →
    m.variants[i]? = some v → plain ∉ (Walk.plainCases g m.typeName variants).take i →
    plain ∉ m.namesBefore i → v.caseName = plain
  /-- Every other one gets the smallest number from two on that makes its plain name free among
  the cases before it. -/
  numbered : ∀ i plain v, (Walk.plainCases g m.typeName variants)[i]? = some plain →
    m.variants[i]? = some v →
    plain ∈ (Walk.plainCases g m.typeName variants).take i ∨ plain ∈ m.namesBefore i →
    IsFreeSuffix plain 2 (m.namesBefore i) v.caseName
  /-- The type arguments are the types of the cases, in their order. -/
  arguments : argumentTexts m.typeArguments = m.variants.map Variant.typeName

end Model.NamedUnion

/-- The model of a union shows its variants, if there are any and all names of types are legal. -/
theorem shows_ofUnion {g : Graph} {typeName : String} {variants : List NodeId} {w w' : Walk}
    {cs : List Case} {tasks : List Task} (doc : List String)
    (h : Walk.cases g typeName w [] 0 variants = some (w', cs, tasks)) (hne : variants ≠ [])
    (hlegal : ∀ name ∈ TypeRef.namesAll (cs.map Case.type), Identifier.isLegal name = true) :
    (Model.ofUnion typeName ⟨doc, cs⟩).Shows g variants := by
  have hlength : cs.length = variants.length := (Walk.cases_part h).2.2.1
  have hcase : ∀ (i : Nat) v, (Model.ofUnion typeName ⟨doc, cs⟩).variants[i]? = some v →
      ∃ k : Case, cs[i]? = some k ∧ Model.Variant.mk k.type.text k.name = v := by
    intro i v hv
    simpa [Model.ofUnion] using hv
  have hbefore : ∀ i, (Model.ofUnion typeName ⟨doc, cs⟩).namesBefore i =
      (cs.take i).map Case.name := by
    intro i
    simp [Model.NamedUnion.namesBefore, Model.ofUnion, ← List.map_take, Function.comp_def]
  have hplain : ∀ i plain k, (Walk.plainCases g typeName variants)[i]? = some plain →
      cs[i]? = some k → IsFirstFree plain ((cs.take i).map Case.name) k.name := by
    intro i plain k hi hk
    obtain ⟨variant, hvariant, rfl⟩ := by simpa [Walk.plainCases] using hi
    obtain ⟨k', hk', -, hname⟩ := Walk.cases_spec h hvariant
    obtain rfl := Option.some.inj (hk.symm.trans hk')
    simpa using hname
  constructor
  case length => simpa [Model.ofUnion] using hlength
  case arity => exact hlength
  case types =>
    intro i variant v hvariant hv
    obtain ⟨k, hk, rfl⟩ := hcase i v hv
    obtain ⟨k', hk', htype, -⟩ := Walk.cases_spec h hvariant
    obtain rfl := Option.some.inj (hk.symm.trans hk')
    rw [Nat.zero_add] at htype
    exact ⟨k.type, htype, rfl⟩
  case distinct =>
    have hnames := Walk.nodup_cases h
    simpa [Model.ofUnion, Function.comp_def] using hnames
  case kept =>
    intro i plain v hi hv _ hfree
    obtain ⟨k, hk, rfl⟩ := hcase i v hv
    rw [hbefore] at hfree
    exact (IsChosen.eq_plain_iff (hplain i plain k hi hk)).2 hfree
  case numbered =>
    intro i plain v hi hv htaken
    obtain ⟨k, hk, rfl⟩ := hcase i v hv
    rw [hbefore] at htaken ⊢
    have hmem : plain ∈ (cs.take i).map Case.name := by
      rcases htaken with hearlier | hmem
      · exact Walk.plainCase_taken h hearlier
      · exact hmem
    have hfirst := hplain i plain k hi hk
    exact IsChosen.isFreeSuffix hfirst fun hkept => (IsChosen.eq_plain_iff hfirst).1 hkept hmem
  case arguments =>
    have htexts : TypeRef.texts (cs.map Case.type) = cs.map fun k => k.type.text := by
      rw [TypeRef.texts_eq_map, List.map_map]
      rfl
    have hcs : TypeRef.texts (cs.map Case.type) ≠ [] := by
      rw [htexts, ne_eq, List.map_eq_nil_iff, ← List.length_eq_zero_iff, hlength,
        List.length_eq_zero_iff]
      exact hne
    have hread := argumentTexts_argumentsText hcs (TypeRef.isArgument_texts _ hlegal)
    rw [htexts] at hread
    simpa [Model.ofUnion, Function.comp_def] using hread

/-- **Models of unions.** Whatever the graph and the settings, and in every state of a walk, the
model of a union with a contract shows the variants of its node, and its arity is noted for the
support types. -/
theorem union_models (g : Graph) (s : Settings) {w : Walk} {tasks : List Task}
    (h : Walk.Reached g s.rootTypeName w tasks) {c : Contract} (hc : c ∈ w.contracts)
    {u : Contract.Union} (hbody : c.body = .union u) :
    ∃ node variants, ∃ m : Model.NamedUnion, g.node? c.node = some node ∧
      node.kind = .union variants ∧ (c.draft s).template = Template.Name.namedUnion ∧
      (c.draft s).model = m.toValue ∧ m.typeName = c.name ∧ m.Shows g variants ∧
      m.arity ∈ w.resolver.features.abstractUnions := by
  obtain ⟨node, hnode, hmade⟩ := h.made c hc
  have hlegal := h.isLegal_types c hc
  have harity := h.unionArity_mem c hc u.cases.length (by simp [Contract.unionArity?, hbody])
  rw [Contract.types, hbody] at hlegal
  rw [hbody] at hmade
  cases hmade with
  | @union variants _ _ cs doc _ hkind hcases =>
    have hne : variants ≠ [] := by
      rintro rfl
      exact h.union_ne_nil c hc node hnode hkind
    obtain ⟨htemplate, hmodel⟩ := Contract.draft_of_union s hbody
    exact ⟨node, variants, Model.ofUnion c.name ⟨doc, cs⟩, hnode, hkind, htemplate, hmodel, rfl,
      shows_ofUnion doc hcases hne hlegal, harity⟩

/-- What a contract declares, if that is a union. -/
def Contract.union? (c : Contract) : Option Contract.Union :=
  match c.body with
  | .record _ => none
  | .enumeration _ => none
  | .union u => some u

theorem Contract.union?_eq_some_iff {c : Contract} {u : Contract.Union} :
    c.union? = some u ↔ c.body = .union u := by
  cases hbody : c.body <;> simp [union?, hbody]

/-- A shape is one of three objects, of which the first two have the same plain name and the third
has the name that the second gets, or else one of several unions in place. -/
def shapes : Graph where
  root := 0
  nodes := #[
    { Node.ofKind (.union [1, 2, 3, 4]) with nameHint := some "Shape" },
    { Node.ofKind (.object ⟨[], none, false, none⟩) with nameHint := some "disk one" },
    { Node.ofKind (.object ⟨[], none, false, none⟩) with nameHint := some "Disk-One" },
    { Node.ofKind (.object ⟨[], none, false, none⟩) with nameHint := some "Disk-one-2" },
    Node.ofKind (.array 5), Node.ofKind (.union [6, 7, 1]),
    Node.ofKind (.primitive .string none), Node.ofKind (.array 6)]

/-- The second shape gets a number, and so does the third since its name is gone by then. -/
theorem union_models_shapes : ∃ w c u, Walk.Reached shapes none w [] ∧ c ∈ w.contracts ∧
    c.body = .union u ∧ c.name = "Shape" ∧
    u.cases.map Case.name = ["DiskOne", "DiskOne2", "DiskOne22", "ShapeCase4"] ∧
    ∃ node variants, ∃ m : Model.NamedUnion, shapes.node? c.node = some node ∧
      node.kind = .union variants ∧ (c.draft {}).template = Template.Name.namedUnion ∧
      (c.draft {}).model = m.toValue ∧ m.typeName = c.name ∧ m.Shows shapes variants ∧
      m.arity ∈ w.resolver.features.abstractUnions := by
  have hplan : (Plan.ofGraph shapes none).map (fun p => p.contracts.head?.bind fun c =>
      c.union?.map fun u => (c.name, u.cases.map Case.name)) =
      some (some ("Shape", ["DiskOne", "DiskOne2", "DiskOne22", "ShapeCase4"])) := by
    decide +kernel
  obtain ⟨p, hp, hshape⟩ := Option.map_eq_some_iff.1 hplan
  obtain ⟨c, hc, hunion⟩ := Option.bind_eq_some_iff.1 hshape
  obtain ⟨u, hu, hnames⟩ := Option.map_eq_some_iff.1 hunion
  obtain ⟨hname, hcases⟩ := Prod.mk.inj hnames
  obtain ⟨w, hw, hcontracts, -, -⟩ := Plan.reached_of_ofGraph hp
  have hmem : c ∈ w.contracts := hcontracts ▸ List.mem_of_mem_head? hc
  have hbody := Contract.union?_eq_some_iff.1 hu
  exact ⟨w, c, u, hw, hmem, hbody, hname, hcases, union_models shapes {} hw hmem hbody⟩

end ContractGen
