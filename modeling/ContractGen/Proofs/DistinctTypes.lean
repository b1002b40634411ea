import ContractGen.Proofs.SupportTypes

/-!
# No type is declared twice

The types of a file come from three places: contracts of nodes, support types of unions, and
utilities. Contracts have different nodes, for a node is visited once (`Walk.Reached.nodup_nodes`),
and different nodes have different names. Support types differ from each other by their arity or
by being one of the utilities, and from contracts by a sign that no name of a node has or by being
reserved. So a type of a file can be looked up by its name (`types_distinct`).
-/

namespace ContractGen

open Schema (Graph Node NodeId)

theorem Walk.Reached.nodup_nodes {g : Graph} {rootName : Option String} {w : Walk}
    {tasks : List Task} (h : Walk.Reached g rootName w tasks) :
    (w.contracts.map Contract.node).Nodup := by
  refine h.induct_walk (P := fun w _ => (w.contracts.map Contract.node).Nodup) .nil ?_
  intro w task rest w' more hreached ih hvisit
  by_cases hseen : g.dereference task.node ∈ w.visited
  · cases hvisit with
    | again _ => exact ih
    | pass hnew _ _ _ => exact absurd hseen hnew
    | fail hnew _ _ => exact absurd hseen hnew
    | declare hnew _ _ _ _ => exact absurd hseen hnew
  · obtain ⟨-, c, hcontracts, hnode⟩ | ⟨-, hcontracts⟩ := hvisit.contracts_of_new hseen
    · rw [hcontracts, List.map_append, List.map_singleton, List.nodup_append]
      refine ⟨ih, List.nodup_singleton _, ?_⟩
      -- contracts declared before are those of visited nodes
      intro i hi j hj hij
      obtain ⟨c', hc', rfl⟩ := List.mem_map.1 hi
      rw [List.mem_singleton.1 hj, hnode] at hij
      exact hseen (hij ▸ hreached.visited_of_mem c' hc')
    · rw [hcontracts]; exact ih

theorem Plan.nodup_names {g : Graph} {rootName : Option String} {p : Plan}
    (h : Plan.ofGraph g rootName = some p) : (p.contracts.map Contract.name).Nodup := by
  obtain ⟨w, hw, hcontracts, -, -⟩ := Plan.reached_of_ofGraph h
  rw [hcontracts]
  have hnodes : w.contracts.Pairwise fun c c' => c.node ≠ c'.node :=
    List.pairwise_map.1 hw.nodup_nodes
  refine List.pairwise_map.2 (hnodes.imp_of_mem fun {c c'} hc hc' hne hname => hne ?_)
  refine hw.sound.injective _ _ c.name (hw.nameOf_of_mem c hc) ?_
  rw [hname]
  exact hw.nameOf_of_mem c' hc'

theorem Plan.nodup_drafts {g : Graph} {rootName : Option String} {p : Plan}
    (h : Plan.ofGraph g rootName = some p) (s : Settings) :
    ((p.drafts s).map Draft.typeName).Nodup := by
  have hascending : p.features.Ascending := (Plan.features_adds h).ascending ⟨.nil, .nil⟩
  rw [Plan.drafts, List.map_append, Plan.map_typeName_contractDrafts, List.nodup_append]
  refine ⟨Plan.nodup_names h, Support.nodup_drafts hascending s, ?_⟩
  rintro name hcontract _ hsupport rfl
  exact Plan.not_mem_names h (Support.hasTick_or_reserved hsupport) hcontract

/-- Among types of different names a look for a name finds the type of that name. -/
theorem GeneratedFile.artifact?_eq_some_iff {file : GeneratedFile} (h : file.typeNames.Nodup)
    {name : String} {a : Artifact} :
    file.artifact? name = some a ↔ a ∈ file.artifacts ∧ a.typeName = name := by
  have hinj := List.inj_on_of_nodup_map h
  constructor
  · intro ha
    exact ⟨List.mem_of_find?_eq_some ha, by simpa using List.find?_some ha⟩
  · rintro ⟨ha, rfl⟩
    cases hfind : file.artifact? a.typeName with
    | none => simpa using List.find?_eq_none.1 hfind a ha
    | some b =>
      have hname : b.typeName = a.typeName := by simpa using List.find?_some hfind
      rw [hinj (List.mem_of_find?_eq_some hfind) ha hname]

/-- **No file declares a type twice**, whatever the graph and the settings: contracts, support types
of unions and utilities all have different names, so a name finds the one type that has it. -/
theorem types_distinct {ε : Type} (render : Renderer ε) (s : Settings) (g : Graph)
    (file : GeneratedFile) (h : generate render s g = .ok file) :
    file.typeNames.Nodup ∧
      ∀ name a, file.artifact? name = some a ↔ a ∈ file.artifacts ∧ a.typeName = name := by
  obtain ⟨p, hp, hartifacts, -⟩ := generate_eq_ok h
  have hnodup : file.typeNames.Nodup := by
    rw [GeneratedFile.typeNames, Draft.map_typeName_of_mapM_render hartifacts]
    exact Plan.nodup_drafts hp s
  exact ⟨hnodup, fun name a => GeneratedFile.artifact?_eq_some_iff hnodup⟩

/-- Objects whose names look like those of support types or of each other; two of them stand behind
references, and one property points at no node. -/
def lookalikes : Graph where
  root := 0
  nodes := #[
    { Node.ofKind (.object {
        properties := [⟨"a", 1, true, false, false, none, []⟩,
          ⟨"b", 2, true, false, false, none, []⟩, ⟨"c", 3, true, false, false, none, []⟩,
          ⟨"d", 6, true, false, false, none, []⟩, ⟨"e", 9, true, false, false, none, []⟩]
        base := none
        isAbstract := false
        discriminator := some ⟨"type", [⟨"one of 2", 7⟩]⟩ }) with nameHint := some "OneOf`2" },
    { Node.ofKind (.object ⟨[], none, false, none⟩) with nameHint := some "OneOf 2" },
    { Node.ofKind (.object ⟨[], none, false, none⟩) with
      nameHint := some "Json Inheritance Converter" },
    Node.ofKind (.union [4, 5]), Node.ofKind (.reference 1),
    { Node.ofKind (.object ⟨[], none, false, none⟩) with nameHint := some "OneOf" },
    Node.ofKind (.reference 5), Node.ofKind (.object ⟨[], none, false, none⟩)]

/-- The types of the lookalikes all get names of their own, and `OneOf` with two parameters is the
support type. -/
theorem types_distinct_lookalikes :
    ∃ file, generate blankRenderer {} lookalikes = .ok file ∧
      file.typeNames = ["OneOf2", "OneOf22", "JsonInheritanceConverter2", "OneOf3", "OneOf23",
        "OneOf`2", "OneOfBase`2", "JsonInheritanceAttribute", "JsonInheritanceConverter",
        "OneOfConverter"] ∧
      file.typeNames.Nodup ∧
      ∀ a ∈ file.artifacts, a.typeName = "OneOf`2" → file.artifact? "OneOf`2" = some a := by
  obtain ⟨file, hok⟩ : ∃ file, generate blankRenderer {} lookalikes = .ok file :=
    exists_eq_ok (by decide +kernel)
  have hnames : (generate blankRenderer {} lookalikes).toOption.map GeneratedFile.typeNames =
      some ["OneOf2", "OneOf22", "JsonInheritanceConverter2", "OneOf3", "OneOf23", "OneOf`2",
        "OneOfBase`2", "JsonInheritanceAttribute", "JsonInheritanceConverter",
        "OneOfConverter"] := by
    decide +kernel
  rw [hok] at hnames
  obtain ⟨hnodup, hlookup⟩ := types_distinct _ _ _ _ hok
  exact ⟨file, hok, Option.some.inj hnames, hnodup, fun a ha hname => (hlookup _ a).2 ⟨ha, hname⟩⟩

end ContractGen
