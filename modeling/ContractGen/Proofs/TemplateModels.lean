import ContractGen.Generation
import ContractGen.Proofs.Needs

/-!
# What templates see of contracts

The template of a contract is given a JSON value: the form of a class, of an enumeration or of a
union. What is said of contracts can be read off these values, since the texts and names in them are
those of the contract. `Draft.entries` has the members, literals or cases in a model, and
`Draft.typeTexts` the types that stand there.
-/

namespace ContractGen

open Json (Value)

/-- The entries of a list in a model. -/
def Draft.entries (d : Draft) (key : String) : List Value :=
  match d.model.get? key with
  | some (.array items) => items
  | _ => []

/-- The types that a template is given for the properties or variants in a model. -/
def Draft.typeTexts (d : Draft) : List String :=
  (d.entries "properties" ++ d.entries "variants").filterMap fun entry =>
    (entry.get? "type_name").bind Value.string?

namespace Contract

variable {c : Contract}

/-! ### Models by what is declared -/

theorem draft_of_record (s : Settings) {r : Record} (h : c.body = .record r) :
    (c.draft s).template = Template.Name.class ∧ (c.draft s).base = r.base ∧
      (c.draft s).model = (Model.ofRecord s.nullableAnnotations c.name r).toValue := by
  simp [draft, h]

theorem draft_of_enumeration (s : Settings) {e : Enumeration} (h : c.body = .enumeration e) :
    (c.draft s).template = Template.Name.enum ∧
      (c.draft s).model = (Model.ofEnumeration c.name e).toValue := by
  simp [draft, h]

theorem draft_of_union (s : Settings) {u : Union} (h : c.body = .union u) :
    (c.draft s).template = Template.Name.namedUnion ∧
      (c.draft s).model = (Model.ofUnion c.name u).toValue := by
  simp [draft, h]

/-! ### Entries -/

theorem entries_of_record (s : Settings) {r : Record} (h : c.body = .record r) :
    (c.draft s).entries "properties" = r.members.map (fun m =>
      (Model.ofMember s.nullableAnnotations c.name m).toValue) ∧
    (c.draft s).entries "variants" = [] := by
  obtain ⟨-, -, hmodel⟩ := draft_of_record s h
  constructor
  · rw [Draft.entries, hmodel]
    exact List.map_map
  · rw [Draft.entries, hmodel]
    rfl

theorem entries_of_enumeration (s : Settings) {e : Enumeration} (h : c.body = .enumeration e) :
    (c.draft s).entries "properties" = [] ∧ (c.draft s).entries "variants" = [] := by
  rw [Draft.entries, Draft.entries, (draft_of_enumeration s h).2]
  exact ⟨rfl, rfl⟩

theorem entries_of_union (s : Settings) {u : Union} (h : c.body = .union u) :
    (c.draft s).entries "properties" = [] ∧ (c.draft s).entries "variants" =
      u.cases.map (fun k => Model.Variant.toValue ⟨k.type.text, k.name⟩) := by
  constructor
  · rw [Draft.entries, (draft_of_union s h).2]
    rfl
  · rw [Draft.entries, (draft_of_union s h).2]
    exact List.map_map

/-! ### Types -/

/-- The types that a template is given for a contract: marks are added to those of members. -/
def typeTexts (annotations : Bool) (c : Contract) : List String :=
  match c.body with
  | .record r => r.members.map fun m => m.type.memberText m.mayBeNull annotations
  | .enumeration _ => []
  | .union u => u.cases.map fun k => k.type.text

theorem typeTexts_draft (s : Settings) (c : Contract) :
    (c.draft s).typeTexts = c.typeTexts s.nullableAnnotations := by
  have hmember : ∀ m, ((Model.ofMember s.nullableAnnotations c.name m).toValue.get?
      "type_name").bind Value.string? =
        some (m.type.memberText m.mayBeNull s.nullableAnnotations) := fun m => rfl
  have hcase : ∀ v : Model.Variant, (v.toValue.get? "type_name").bind Value.string? =
    some v.typeName := fun v => rfl
  cases hbody : c.body with
  | record r =>
    simp [Draft.typeTexts, entries_of_record s hbody, typeTexts, hbody, hmember,
      List.filterMap_map]
  | enumeration e => simp [Draft.typeTexts, entries_of_enumeration s hbody, typeTexts, hbody]
  | union u =>
    simp [Draft.typeTexts, entries_of_union s hbody, typeTexts, hbody, hcase,
      List.filterMap_map]

/-! ### What asks for support types -/

theorem unionArity?_draft (s : Settings) (n : Nat) :
    c.unionArity? = some n ↔ (c.draft s).template = Template.Name.namedUnion ∧
      ((c.draft s).entries "variants").length = n := by
  cases hbody : c.body with
  | record r =>
    have hother : Template.Name.class ≠ Template.Name.namedUnion := by decide
    simp [unionArity?, hbody, draft_of_record s hbody, hother]
  | enumeration e =>
    have hother : Template.Name.enum ≠ Template.Name.namedUnion := by decide
    simp [unionArity?, hbody, draft_of_enumeration s hbody, hother]
  | union u =>
    simp [unionArity?, hbody, draft_of_union s hbody, entries_of_union s hbody]

theorem hasHierarchy_draft (s : Settings) :
    c.hasHierarchy = true ↔
      ∃ d : Model.Discriminator, (c.draft s).model.get? "discriminator" = some d.toValue := by
  cases hbody : c.body with
  | record r =>
    have hmodel : (c.draft s).model.get? "discriminator" = some
        (((r.hierarchy.map Model.ofHierarchy).map Model.Discriminator.toValue).getD .null) := by
      rw [(draft_of_record s hbody).2.2]
      rfl
    rw [hmodel]
    cases hhierarchy : r.hierarchy with
    | none => simp [hasHierarchy, hbody, hhierarchy, Model.Discriminator.toValue]
    | some h => simp [hasHierarchy, hbody, hhierarchy]
  | enumeration e =>
    have hmodel : (c.draft s).model.get? "discriminator" = none := by
      rw [(draft_of_enumeration s hbody).2]
      rfl
    simp [hasHierarchy, hbody, hmodel]
  | union u =>
    have hmodel : (c.draft s).model.get? "discriminator" = none := by
      rw [(draft_of_union s hbody).2]
      rfl
    simp [hasHierarchy, hbody, hmodel]

theorem hasDate_draft (s : Settings) :
    c.hasDate = true ↔ ∃ entry ∈ (c.draft s).entries "properties",
      entry.get? "date_format" = some (.bool true) := by
  have hmember : ∀ m, (Model.ofMember s.nullableAnnotations c.name m).toValue.get?
    "date_format" = some (.bool m.isDate) := fun m => rfl
  cases hbody : c.body with
  | record r => simp [hasDate, hbody, entries_of_record s hbody, hmember]
  | enumeration e => simp [hasDate, hbody, entries_of_enumeration s hbody]
  | union u => simp [hasDate, hbody, entries_of_union s hbody]

end Contract

end ContractGen
