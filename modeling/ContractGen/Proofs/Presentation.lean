import ContractGen.Proofs.SupportTypes
import ContractGen.Proofs.TemplateModels

/-!
# Settings and presentation

Which types a graph needs, what they mention and which faults stand in the way is decided by its
plan, and of all settings a plan takes only the name for the root. The others come in afterwards:
nullable annotations put marks behind the types of members (`withoutMarks_memberText`), excluded
names take utilities away (`Support.map_typeName_drafts_filter`), and the namespace, the format of
dates and the templates have a part in code only.

`settings_present` compares two runs that have no more in common than the name for the root.
-/

namespace ContractGen

open Json (Value)
open Schema (Graph Node)

/-! ### Marks for null -/

/-- A text without question marks. -/
def withoutMarks (text : String) : String := String.ofList (text.toList.filter fun c => c != '?')

theorem withoutMarks_nullableText (name : String) (isValue nullable annotations : Bool) :
    withoutMarks (nullableText name isValue nullable annotations) = withoutMarks name := by
  unfold nullableText
  split_ifs
  · simp [withoutMarks, List.filter_append]
  · rfl

/-- **Marks are all that nullable annotations change** about the type of a member. -/
theorem withoutMarks_memberText (t : TypeRef) (nullable annotations : Bool) :
    withoutMarks (t.memberText nullable annotations) = withoutMarks t.text :=
  withoutMarks_nullableText t.text t.isValue nullable annotations

/-! ### What templates see of types -/

namespace Contract

theorem withoutMarks_typeTexts (annotations : Bool) (c : Contract) :
    (c.typeTexts annotations).map withoutMarks = c.types.map fun t => withoutMarks t.text := by
  cases hbody : c.body <;>
    simp [typeTexts, types, hbody, withoutMarks_memberText, Function.comp_def]

theorem shape_draft (s s' : Settings) (c : Contract) :
    ((c.draft s).typeName, (c.draft s).base, (c.draft s).kind) =
      ((c.draft s').typeName, (c.draft s').base, (c.draft s').kind) := by
  unfold Contract.draft
  split <;> rfl

end Contract

/-! ### Artifacts by kind -/

/-- The types of a file that are of some kinds. -/
def GeneratedFile.ofKinds (file : GeneratedFile) (P : ArtifactKind → Bool) : List Artifact :=
  file.artifacts.filter fun a => P a.kind

theorem Draft.map_filter_of_mapM_render {ε : Type} {render : Renderer ε} {ds : List Draft}
    {as : List Artifact} (h : ds.mapM (Draft.render render) = .ok as) (P : ArtifactKind → Bool) :
    (as.filter fun a => P a.kind).map (fun a => (a.typeName, a.base, a.kind)) =
      (ds.filter fun d => P d.kind).map (fun d => (d.typeName, d.base, d.kind)) := by
  have hfilter := congrArg (List.filter fun x => P x.2.2) (map_of_mapM_render h)
  simpa only [List.filter_map, Function.comp_def] using hfilter

/-- Whether a kind of artifacts stands for nodes. -/
def ArtifactKind.isContract (k : ArtifactKind) : Bool := k.category == .contract

theorem Plan.isContract_of_mem {s : Settings} {p : Plan} {d : Draft}
    (h : d ∈ p.contractDrafts s) : d.kind.isContract = true := by
  obtain ⟨c, -, rfl⟩ := List.mem_map.1 h
  simp [ArtifactKind.isContract, c.category_draft]

theorem Support.isContract_of_mem {s : Settings} {f : Features} {d : Draft}
    (h : d ∈ Support.drafts f s) : d.kind.isContract = false := by
  simp [ArtifactKind.isContract, Support.category_drafts h]

/-! ### Excluded names -/

namespace Support

/-- The names of the support types if nothing is excluded. -/
def allNames (f : Features) : List String := (drafts f {}).map Draft.typeName

theorem map_typeName_neededUtilities (f : Features) (hasUnions : Bool) (dateFormat : String) :
    (neededUtilities f hasUnions dateFormat).map Draft.typeName =
      (utilities f hasUnions {}).map Draft.typeName := by
  have hall : ∀ d : Draft, (!Settings.isExcluded {} d.typeName) = true := fun d => rfl
  rw [utilities, List.filter_eq_self.2 fun d _ => hall d]
  cases hi : f.inheritance <;> cases hd : f.dateFormat <;> cases hasUnions <;>
    simp [neededUtilities, utility, hi, hd]

/-- **Excluding takes utilities away, and nothing else.** -/
theorem map_typeName_drafts_filter (f : Features) (s : Settings) :
    (drafts f s).map Draft.typeName =
      (allNames f).filter fun name => !(s.isExcluded name && utilityNames.contains name) := by
  have hunions : ∀ name ∈
      f.valueUnions.map valueUnionName ++ f.abstractUnions.map abstractUnionName,
      (!(s.isExcluded name && utilityNames.contains name)) = true := by
    intro name hname
    have hnot : name ∉ utilityNames := fun hmem =>
      not_hasTick_of_mem_utilityNames name hmem (hasTick_of_mem_unions hname)
    simp [hnot]
  rw [allNames, map_typeName_drafts, map_typeName_drafts, List.filter_append,
    List.filter_eq_self.2 hunions, ← map_typeName_neededUtilities f _ s.dateFormat, utilities,
    List.filter_map]
  refine congrArg _ (congrArg _ (List.filter_congr fun d hd => ?_))
  -- every needed utility has the name of a utility
  have hname : d.typeName ∈ utilityNames := by
    have hmem : d.typeName ∈ (utilities f (!(unionHelpers f).isEmpty) {}).map Draft.typeName := by
      rw [← map_typeName_neededUtilities f _ s.dateFormat]
      exact List.mem_map_of_mem hd
    exact (utilities_sublist f _ {}).subset hmem
  simp [hname]

theorem filter_unionHelper_drafts (f : Features) (s : Settings) :
    (drafts f s).filter (fun d => d.kind == .unionHelper) = unionHelpers f := by
  have hhelpers : ∀ d ∈ unionHelpers f, (d.kind == .unionHelper) = true := by
    intro d hd
    rcases List.mem_append.1 hd with hd | hd
    · obtain ⟨n, -, rfl⟩ := List.mem_map.1 hd
      rfl
    · obtain ⟨n, -, rfl⟩ := List.mem_map.1 hd
      rfl
  have hutilities : ∀ d ∈ utilities f (!(unionHelpers f).isEmpty) s,
      ¬ (d.kind == .unionHelper) = true := by
    intro d hd
    have hneeded := (List.mem_filter.1 hd).1
    simp only [neededUtilities, List.mem_append, List.mem_ite_nil_right, List.mem_cons,
      List.not_mem_nil, or_false] at hneeded
    obtain (⟨-, rfl | rfl⟩ | ⟨-, rfl⟩) | ⟨-, rfl⟩ := hneeded <;> simp [utility]
  rw [drafts, List.filter_append, List.filter_eq_self.2 hhelpers,
    List.filter_eq_nil_iff.2 hutilities, List.append_nil]

end Support

/-! ### One run, and two -/

/-- What a file shows of the settings behind it. -/
theorem generate_presents {ε : Type} {render : Renderer ε} {s : Settings} {g : Graph}
    {file : GeneratedFile} (h : generate render s g = .ok file) :
    ∃ p, Plan.ofGraph g s.rootTypeName = some p ∧ file.faults = p.faults ∧
      (p.contractDrafts s).mapM (Draft.render render) =
        .ok (file.ofKinds ArtifactKind.isContract) ∧
      (file.ofKinds fun k => !k.isContract).map Artifact.typeName =
        (Support.allNames p.features).filter
          (fun name => !(s.isExcluded name && Support.utilityNames.contains name)) ∧
      (file.ofKinds fun k => k == .unionHelper).map Artifact.typeName =
        (Support.unionHelpers p.features).map Draft.typeName := by
  obtain ⟨p, hp, hrender, hfaults⟩ := generate_eq_ok h
  have hparts := hrender
  rw [Plan.drafts, List.mapM_append] at hparts
  obtain ⟨contracts, hcontracts, hparts⟩ := bind_eq_ok_iff.1 hparts
  obtain ⟨support, hsupport, hparts⟩ := bind_eq_ok_iff.1 hparts
  have hfile : file.artifacts = contracts ++ support := by
    simpa [pure, Except.pure] using hparts.symm
  -- kinds tell the two parts of the file apart
  have hkinds : ∀ {ds : List Draft} {as : List Artifact} {b : Bool},
      ds.mapM (Draft.render render) = .ok as → (∀ d ∈ ds, d.kind.isContract = b) →
      ∀ a ∈ as, a.kind.isContract = b := by
    intro ds as b has hds a ha
    have hmem := List.mem_map_of_mem (f := fun a => (a.typeName, a.base, a.kind)) ha
    rw [Draft.map_of_mapM_render has] at hmem
    obtain ⟨d, hd, heq⟩ := List.mem_map.1 hmem
    have hkind : d.kind = a.kind := congrArg (fun x => x.2.2) heq
    rw [← hkind]
    exact hds d hd
  have hin := hkinds hcontracts fun d hd => Plan.isContract_of_mem hd
  have hout := hkinds hsupport fun d hd => Support.isContract_of_mem hd
  refine ⟨p, hp, hfaults, ?_, ?_, ?_⟩
  · have hof : file.ofKinds ArtifactKind.isContract = contracts := by
      rw [GeneratedFile.ofKinds, hfile, List.filter_append, List.filter_eq_self.2 hin,
        List.filter_eq_nil_iff.2 fun a ha => by simp [hout a ha], List.append_nil]
    rw [hof]
    exact hcontracts
  · have hof : (file.ofKinds fun k => !k.isContract) = support := by
      rw [GeneratedFile.ofKinds, hfile, List.filter_append,
        List.filter_eq_nil_iff.2 fun a ha => by simp [hin a ha],
        List.filter_eq_self.2 fun a ha => by simp [hout a ha], List.nil_append]
    rw [hof, Draft.map_typeName_of_mapM_render hsupport, Support.map_typeName_drafts_filter]
  · have hnot : ∀ d ∈ p.contractDrafts s, ¬ (d.kind == .unionHelper) = true := by
      intro d hd hkind
      have hcontract := Plan.isContract_of_mem hd
      rw [eq_of_beq hkind] at hcontract
      cases hcontract
    have hshape := congrArg (List.map Prod.fst)
      (Draft.map_filter_of_mapM_render hrender fun k => k == .unionHelper)
    rw [Plan.drafts, List.filter_append, List.filter_eq_nil_iff.2 hnot, List.nil_append,
      Support.filter_unionHelper_drafts] at hshape
    simpa only [List.map_map, Function.comp_def, GeneratedFile.ofKinds] using hshape

/-- **Settings change presentation only.** Two runs over one graph that agree in the name for the
root have the same contracts, features and faults, and their types differ by marks for null. The
names of the support types are in both runs those without exclusions, except for the utilities
that the run excludes; contracts and helpers of unions cannot be excluded. -/
theorem settings_present {ε ε' : Type} (render : Renderer ε) (render' : Renderer ε')
    (s s' : Settings) (g : Graph) (file file' : GeneratedFile)
    (hroot : s.rootTypeName = s'.rootTypeName) (h : generate render s g = .ok file)
    (h' : generate render' s' g = .ok file') :
    ∃ p p', Plan.ofGraph g s.rootTypeName = some p ∧ Plan.ofGraph g s'.rootTypeName = some p' ∧
      p.features = p'.features ∧ file.faults = file'.faults ∧
      (file.ofKinds ArtifactKind.isContract).map (fun a => (a.typeName, a.base, a.kind)) =
        (file'.ofKinds ArtifactKind.isContract).map (fun a => (a.typeName, a.base, a.kind)) ∧
      (p.contractDrafts s).mapM (Draft.render render) =
        .ok (file.ofKinds ArtifactKind.isContract) ∧
      (p'.contractDrafts s').mapM (Draft.render render') =
        .ok (file'.ofKinds ArtifactKind.isContract) ∧
      (p.contractDrafts s).map (fun d => d.typeTexts.map withoutMarks) =
        (p'.contractDrafts s').map (fun d => d.typeTexts.map withoutMarks) ∧
      (file.ofKinds fun k => !k.isContract).map Artifact.typeName =
        (Support.allNames p.features).filter
          (fun name => !(s.isExcluded name && Support.utilityNames.contains name)) ∧
      (file'.ofKinds fun k => !k.isContract).map Artifact.typeName =
        (Support.allNames p.features).filter
          (fun name => !(s'.isExcluded name && Support.utilityNames.contains name)) ∧
      (file.ofKinds fun k => k == .unionHelper).map Artifact.typeName =
        (Support.unionHelpers p.features).map Draft.typeName ∧
      (file'.ofKinds fun k => k == .unionHelper).map Artifact.typeName =
        (Support.unionHelpers p.features).map Draft.typeName := by
  obtain ⟨p, hp, hfaults, hcontracts, hnames, hhelpers⟩ := generate_presents h
  obtain ⟨p', hp', hfaults', hcontracts', hnames', hhelpers'⟩ := generate_presents h'
  -- a plan takes no other setting than the name for the root
  obtain rfl : p = p' := Option.some.inj (by rw [← hp, ← hp', hroot])
  have hshapes : (p.contractDrafts s).map (fun d => (d.typeName, d.base, d.kind)) =
      (p.contractDrafts s').map (fun d => (d.typeName, d.base, d.kind)) := by
    simp only [Plan.contractDrafts, List.map_map, Function.comp_def]
    exact List.map_congr_left fun c _ => c.shape_draft s s'
  have htexts : ∀ s : Settings, (p.contractDrafts s).map (fun d => d.typeTexts.map withoutMarks) =
      p.contracts.map fun c => c.types.map fun t => withoutMarks t.text := by
    intro s
    simp only [Plan.contractDrafts, List.map_map, Function.comp_def, Contract.typeTexts_draft,
      Contract.withoutMarks_typeTexts]
  refine ⟨p, p, hp, hp', rfl, hfaults.trans hfaults'.symm, ?_, hcontracts, hcontracts',
    (htexts s).trans (htexts s').symm, hnames, hnames', hhelpers, hhelpers'⟩
  rw [Draft.map_of_mapM_render hcontracts, Draft.map_of_mapM_render hcontracts', hshapes]

/-- A visit on some day by a guest of two kinds, with notes that have no type. -/
def visits : Graph where
  root := 0
  nodes := #[
    { Node.ofKind (.object {
        properties := [⟨"day", 1, false, true, false, none, []⟩,
          ⟨"guest", 2, true, true, false, none, []⟩, ⟨"notes", 5, false, false, false, none, []⟩]
        base := none
        isAbstract := false
        discriminator := none }) with nameHint := some "Visit" },
    Node.ofKind (.primitive .string (some "date")), Node.ofKind (.union [3, 4]),
    Node.ofKind (.primitive .string none), Node.ofKind (.primitive .integer none),
    Node.ofKind (.union [])]

/-- Settings that exclude a contract, a helper of unions and a utility. -/
def hotel : Settings where
  scope := some "Hotel"
  excluded := ["Visit", "OneOf`2", Support.oneOfConverter]
  nullableAnnotations := true
  dateFormat := "dd.MM.yyyy"

/-- Of the names excluded for visits only that of the utility is missing, and marks are what tells
the types of the two runs apart. -/
theorem settings_present_visits :
    ∃ file file' p p', generate blankRenderer {} visits = .ok file ∧
      generate (ε := Empty) (fun template _ => .ok template) hotel visits = .ok file' ∧
      Plan.ofGraph visits none = some p ∧ Plan.ofGraph visits none = some p' ∧
      file.typeNames = ["Visit", "OneOf`2", "OneOfBase`2", "DateFormatConverter",
        "OneOfConverter"] ∧
      file'.typeNames = ["Visit", "OneOf`2", "OneOfBase`2", "DateFormatConverter"] ∧
      (p.contractDrafts {}).map Draft.typeTexts =
        [["System.DateTime?", "OneOf<string, int>", "object"]] ∧
      (p'.contractDrafts hotel).map Draft.typeTexts =
        [["System.DateTime?", "OneOf<string, int>?", "object?"]] ∧
      file.faults = file'.faults ∧
      (p.contractDrafts {}).map (fun d => d.typeTexts.map withoutMarks) =
        (p'.contractDrafts hotel).map (fun d => d.typeTexts.map withoutMarks) := by
  obtain ⟨file, hok⟩ : ∃ file, generate blankRenderer {} visits = .ok file :=
    exists_eq_ok (by decide +kernel)
  obtain ⟨file', hok'⟩ : ∃ file', generate (ε := Empty) (fun template _ => .ok template) hotel
      visits = .ok file' := exists_eq_ok (by decide +kernel)
  have hnames : (generate blankRenderer {} visits).toOption.map GeneratedFile.typeNames =
      some ["Visit", "OneOf`2", "OneOfBase`2", "DateFormatConverter", "OneOfConverter"] := by
    decide +kernel
  have hnames' : (generate (ε := Empty) (fun template _ => .ok template) hotel
      visits).toOption.map GeneratedFile.typeNames =
      some ["Visit", "OneOf`2", "OneOfBase`2", "DateFormatConverter"] := by
    decide +kernel
  have htexts : (Plan.ofGraph visits none).map (fun p => (p.contractDrafts {}).map
      Draft.typeTexts) = some [["System.DateTime?", "OneOf<string, int>", "object"]] := by
    decide +kernel
  have htexts' : (Plan.ofGraph visits none).map (fun p => (p.contractDrafts hotel).map
      Draft.typeTexts) = some [["System.DateTime?", "OneOf<string, int>?", "object?"]] := by
    decide +kernel
  obtain ⟨p, p', hp, hp', -, hfaults, -, -, -, hsame, -⟩ :=
    settings_present _ _ {} hotel _ _ _ rfl hok hok'
  rw [hok] at hnames
  rw [hok'] at hnames'
  rw [hp] at htexts
  rw [show hotel.rootTypeName = none from rfl] at hp'
  rw [hp'] at htexts'
  exact ⟨file, file', p, p', hok, hok', hp, hp', Option.some.inj hnames, Option.some.inj hnames',
    Option.some.inj htexts, Option.some.inj htexts', hfaults, hsame⟩

end ContractGen
