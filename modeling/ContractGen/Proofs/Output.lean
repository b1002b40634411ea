import ContractGen.Generation
import ContractGen.Proofs.Outcomes
import ContractGen.Proofs.Visits

/-!
# The types of a file

A generated file has one artifact for every draft of its plan, in the same order
(`generate_eq_ok`, `Draft.map_of_mapM_render`): first those of the contracts, then the support
types. Which of them stand for nodes can be told from their kinds (`exists_contract_iff`).
-/

namespace ContractGen

open Schema (Graph)

variable {ε : Type} {render : Renderer ε} {s : Settings}

/-- The renderer that leaves all types blank. -/
def blankRenderer : Renderer Empty := fun _ _ => .ok ""

namespace Draft

theorem render_eq_ok {d : Draft} {a : Artifact} (h : d.render render = .ok a) :
    a.typeName = d.typeName ∧ a.base = d.base ∧ a.kind = d.kind := by
  unfold Draft.render at h
  cases hcode : render d.template d.model with
  | error e => rw [hcode] at h; cases h
  | ok code =>
    rw [hcode] at h
    obtain rfl : _ = a := by simpa [Except.map] using h
    exact ⟨rfl, rfl, rfl⟩

theorem map_of_mapM_render {ds : List Draft} {as : List Artifact}
    (h : ds.mapM (Draft.render render) = .ok as) :
    as.map (fun a => (a.typeName, a.base, a.kind)) =
      ds.map (fun d => (d.typeName, d.base, d.kind)) := by
  have hall := mapM_eq_ok_iff.1 h
  clear h
  induction hall with
  | nil => rfl
  | cons hd _ ih =>
    obtain ⟨hname, hbase, hkind⟩ := render_eq_ok hd
    rw [List.map_cons, List.map_cons, hname, hbase, hkind, ih]

theorem map_typeName_of_mapM_render {ds : List Draft} {as : List Artifact}
    (h : ds.mapM (Draft.render render) = .ok as) :
    as.map Artifact.typeName = ds.map Draft.typeName := by
  simpa [Function.comp_def] using congrArg (List.map Prod.fst) (map_of_mapM_render h)

end Draft

/-! ### Contracts among the types -/

theorem Contract.typeName_draft (s : Settings) (c : Contract) : (c.draft s).typeName = c.name := by
  unfold Contract.draft
  split <;> rfl

theorem Contract.category_draft (s : Settings) (c : Contract) :
    (c.draft s).kind.category = .contract := by
  unfold Contract.draft
  split <;> rfl

theorem Plan.map_typeName_contractDrafts (s : Settings) (p : Plan) :
    (p.contractDrafts s).map Draft.typeName = p.contracts.map Contract.name := by
  rw [contractDrafts, List.map_map]
  exact List.map_congr_left fun c _ => c.typeName_draft s

theorem Support.category_drafts {f : Features} {d : Draft} (h : d ∈ Support.drafts f s) :
    d.kind.category = .utility := by
  simp only [Support.drafts, Support.unionHelpers, Support.utilities, List.mem_append, List.mem_map,
    List.mem_filter] at h
  obtain (⟨n, -, rfl⟩ | ⟨n, -, rfl⟩) | ⟨h, -⟩ := h
  · rfl
  · rfl
  · simp only [Support.neededUtilities, List.mem_append, List.mem_ite_nil_right, List.mem_cons,
      List.not_mem_nil, or_false] at h
    obtain (⟨-, rfl | rfl⟩ | ⟨-, rfl⟩) | ⟨-, rfl⟩ := h <;> rfl

theorem unfinished_ne_ok {contracts : List Contract} {file : GeneratedFile} :
    unfinished render s contracts ≠ .ok file := by
  unfold unfinished
  split <;> simp

/-- A file comes from a plan, draft by draft. -/
theorem generate_eq_ok {g : Graph} {file : GeneratedFile} (h : generate render s g = .ok file) :
    ∃ p, Plan.ofGraph g s.rootTypeName = some p ∧
      (p.drafts s).mapM (Draft.render render) = .ok file.artifacts ∧ file.faults = p.faults := by
  unfold generate at h
  split at h
  · exact absurd h unfinished_ne_ok
  rename_i p hp
  refine ⟨p, hp, ?_⟩
  cases hrender : p.render render s with
  | error e => rw [hrender] at h; cases h
  | ok f =>
    obtain rfl : f = file := by simpa [hrender, Except.mapError] using h
    obtain ⟨artifacts, hartifacts, hrender⟩ := bind_eq_ok_iff.1 hrender
    obtain ⟨code, -, hrender⟩ := bind_eq_ok_iff.1 hrender
    obtain rfl : _ = f := by simpa [pure, Except.pure] using hrender
    exact ⟨hartifacts, rfl⟩

theorem exists_contract_iff {p : Plan} {artifacts : List Artifact} {name : String}
    (h : (p.drafts s).mapM (Draft.render render) = .ok artifacts) :
    (∃ a ∈ artifacts, a.kind.category = .contract ∧ a.typeName = name) ↔
      ∃ c ∈ p.contracts, c.name = name := by
  have hmem : ∀ n b k, (∃ a ∈ artifacts, (a.typeName, a.base, a.kind) = (n, b, k)) ↔
      ∃ d ∈ p.drafts s, (d.typeName, d.base, d.kind) = (n, b, k) := fun n b k => by
    rw [← List.mem_map, Draft.map_of_mapM_render h, List.mem_map]
  constructor
  · rintro ⟨a, ha, hkind, rfl⟩
    obtain ⟨d, hd, heq⟩ := (hmem _ _ _).1 ⟨a, ha, rfl⟩
    obtain ⟨hname, -, hk⟩ := by simpa using heq
    rcases List.mem_append.1 hd with hd | hd
    · obtain ⟨c, hc, rfl⟩ := List.mem_map.1 hd
      exact ⟨c, hc, by rw [← hname, c.typeName_draft]⟩
    · rw [← hk, Support.category_drafts hd] at hkind
      cases hkind
  · rintro ⟨c, hc, rfl⟩
    obtain ⟨a, ha, heq⟩ := (hmem _ _ _).2
      ⟨c.draft s, List.mem_append_left _ (List.mem_map_of_mem hc), rfl⟩
    obtain ⟨hname, -, hk⟩ := by simpa using heq
    exact ⟨a, ha, by rw [hk, c.category_draft], by rw [hname, c.typeName_draft]⟩

end ContractGen
