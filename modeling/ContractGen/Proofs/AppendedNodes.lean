import ContractGen.Proofs.Output
import ContractGen.Proofs.RenamedWalks
import ContractGen.Template.Library

/-!
# Appended nodes

No node of a sound graph points at a node that is appended to it, so a walk never comes to one. Yet
one thing is gathered from all nodes: which unions are declared in place, for their descriptions go
to the properties that do so. An appended object can thus take the comment off a union
(`comment_lost`). Nothing else can happen (`generate_append`).
-/

namespace ContractGen

open Schema (Graph Node NodeId)
open Schema.Graph (Embeds KeepsDocs)

namespace Schema.Graph

variable {g : Graph} {more : Array Node} {i : NodeId}

/-- The graph with more nodes behind its own. -/
def append (g : Graph) (more : Array Node) : Graph := { g with nodes := g.nodes ++ more }

/-- Whether an appended object declares a node in place. -/
def hides (g : Graph) (more : Array Node) (i : NodeId) : Bool :=
  (List.range more.size).any fun k => (g.append more).declaresInPlace (g.size + k) i

theorem hides_iff : g.hides more i = true ↔
    ∃ k, g.size ≤ k ∧ (g.append more).declaresInPlace k i = true := by
  simp only [hides, List.any_eq_true, List.mem_range]
  constructor
  · rintro ⟨k, -, hk⟩
    exact ⟨g.size + k, Nat.le_add_right _ _, hk⟩
  · rintro ⟨k, hle, hk⟩
    have hlt : k < g.size + more.size := by
      simpa [size, append] using lt_size_of_declaresInPlace hk
    refine ⟨k - g.size, by omega, ?_⟩
    rwa [Nat.add_sub_cancel' hle]

/-- **A sound graph is embedded in the extended one**, at the same places. -/
theorem embeds_append (hvalid : g.validate = .ok ()) (more : Array Node) :
    Embeds (fun i => i) g (g.append more) where
  valid := hvalid
  injective := Function.injective_id
  root := rfl
  node i node hnode := by
    have hlt : i < g.nodes.size := lt_size_of_node? hnode
    rw [Node.rename_id, node?, append, Array.getElem?_append_left hlt]
    exact hnode

/-- Comments are lost just where an appended object declares a union in place. -/
theorem keepsDocs_append (hvalid : g.validate = .ok ()) (more : Array Node) :
    KeepsDocs (fun i => i) (g.hides more) g (g.append more) := by
  have e := embeds_append hvalid more
  refine e.keepsDocs fun i _ => ?_
  rw [Walk.mem_inlineNodes, Walk.mem_inlineNodes, hides_iff]
  constructor
  · rintro ⟨k, hk⟩
    by_cases hlt : k < g.size
    · exact .inl ⟨k, e.declaresInPlace hlt i ▸ hk⟩
    · exact .inr ⟨k, Nat.le_of_not_lt hlt, hk⟩
  · rintro (⟨k, hk⟩ | ⟨k, -, hk⟩)
    · exact ⟨k, (e.declaresInPlace (lt_size_of_declaresInPlace hk) i).trans hk⟩
    · exact ⟨k, hk⟩

end Schema.Graph

/-! ### Plans without comments -/

namespace Plan

/-- The plan without the comments of hidden unions. -/
def dropDocs (hide : NodeId → Bool) (p : Plan) : Plan :=
  { p with events := p.events.map fun
      | .fault f => .fault f
      | .declare c => .declare (c.dropDoc hide) }

theorem rename_id (hide : NodeId → Bool) (p : Plan) :
    p.rename (fun i => i) hide = p.dropDocs hide := by
  have hevent : Event.rename (fun i => i) hide = fun
      | .fault f => .fault f
      | .declare c => .declare (c.dropDoc hide) := by
    funext event
    cases event <;> rfl
  rw [rename, dropDocs, hevent]

theorem faults_dropDocs (hide : NodeId → Bool) (p : Plan) :
    (p.dropDocs hide).faults = p.faults := by
  have hid : Fault.rename (fun i => i) = id := rfl
  rw [← rename_id, faults_rename, hid, List.map_id]

theorem map_drafts_dropDocs (hide : NodeId → Bool) (s : Settings) (p : Plan) :
    ((p.dropDocs hide).drafts s).map (fun d => (d.typeName, d.base, d.kind)) =
      (p.drafts s).map (fun d => (d.typeName, d.base, d.kind)) := by
  have hdraft : ∀ c : Contract, (((c.dropDoc hide).draft s).typeName,
      ((c.dropDoc hide).draft s).base, ((c.dropDoc hide).draft s).kind) =
      ((c.draft s).typeName, (c.draft s).base, (c.draft s).kind) := by
    intro c
    cases hbody : c.body <;> simp [Contract.draft, Contract.dropDoc, hbody]
  have hcontracts : (p.dropDocs hide).contracts = p.contracts.map (Contract.dropDoc hide) := by
    rw [← rename_id, contracts_rename]
    rfl
  have hfeatures : (p.dropDocs hide).features = p.features := rfl
  rw [drafts, drafts, contractDrafts, contractDrafts, hcontracts, hfeatures]
  simp only [List.map_append, List.map_map, Function.comp_def, hdraft]

end Plan

theorem GeneratedFile.rename_id (file : GeneratedFile) : file.rename (fun i => i) = file :=
  congrArg (GeneratedFile.mk file.code file.artifacts) (List.map_id file.faults)

namespace Schema.Graph

variable {g : Graph} {more : Array Node}

/-- **The plan of an extended graph** is that of the graph, without the comments that are lost. -/
theorem ofGraph_append (hvalid : g.validate = .ok ()) (more : Array Node)
    (rootName : Option String) :
    Plan.ofGraph (g.append more) rootName =
      (Plan.ofGraph g rootName).map (Plan.dropDocs (g.hides more)) := by
  rw [(embeds_append hvalid more).ofGraph (keepsDocs_append hvalid more)]
  exact congrArg (Option.map · _) (funext (Plan.rename_id (g.hides more)))

theorem keepsDocs_append_of_blank (hvalid : g.validate = .ok ())
    (h : ∀ i < g.size, g.hides more i = true → g.comment i = []) :
    KeepsDocs (fun i => i) (fun _ => false) g (g.append more) := by
  intro i hi
  rw [keepsDocs_append hvalid more i hi]
  by_cases hhides : g.hides more i = true
  · simp [hhides, h i hi hhides]
  · simp [hhides]

end Schema.Graph

/-- **Appended nodes matter for comments only.** From a sound graph and from the same graph with
more nodes behind its own the same is generated, but for the comments of named unions that an
appended object declares in place as the type of a property: these are lost. So the result is the
same if no such union has a comment. In any case the faults are the same, and so are the names,
bases and kinds of the types, in the same order. -/
theorem generate_append {ε : Type} (render : Renderer ε) (s : Settings) (g : Graph)
    (hvalid : g.validate = .ok ()) (more : Array Node) :
    (generate render s (g.append more) =
      match Plan.ofGraph g s.rootTypeName with
      | none => unfinished render s
          ((Plan.contractsOf g s.rootTypeName).map (Contract.dropDoc (g.hides more)))
      | some p => ((p.dropDocs (g.hides more)).render render s).mapError .template) ∧
    ((∀ i < g.size, g.hides more i = true → g.comment i = []) →
      generate render s (g.append more) = generate render s g) ∧
    ∀ file file', generate render s g = .ok file → generate render s (g.append more) = .ok file' →
      file'.faults = file.faults ∧
        file'.artifacts.map (fun a => (a.typeName, a.base, a.kind)) =
          file.artifacts.map (fun a => (a.typeName, a.base, a.kind)) := by
  refine ⟨?_, fun hblank => ?_, fun file file' hfile hfile' => ?_⟩
  · have hcontracts := (Graph.embeds_append hvalid more).contractsOf
      (Graph.keepsDocs_append hvalid more) s.rootTypeName
    rw [generate, Graph.ofGraph_append hvalid, hcontracts]
    cases Plan.ofGraph g s.rootTypeName <;> rfl
  · have hdocs := Graph.keepsDocs_append_of_blank hvalid hblank
    rw [(Graph.embeds_append hvalid more).generate hdocs render s]
    cases generate render s g with
    | error e => rfl
    | ok file => exact congrArg Except.ok file.rename_id
  · obtain ⟨p, hp, hartifacts, hfaults⟩ := generate_eq_ok hfile
    obtain ⟨p', hp', hartifacts', hfaults'⟩ := generate_eq_ok hfile'
    rw [Graph.ofGraph_append hvalid, hp, Option.map_some] at hp'
    obtain rfl := Option.some.inj hp'
    refine ⟨by rw [hfaults', Plan.faults_dropDocs, hfaults], ?_⟩
    rw [Draft.map_of_mapM_render hartifacts', Draft.map_of_mapM_render hartifacts,
      Plan.map_drafts_dropDocs]

/-- An owner has a pet, which is a cat or a dog. -/
def pets : Graph where
  root := 0
  nodes := #[
    { Node.ofKind (.object ⟨[⟨"pet", 1, true, false, false, none, []⟩], none, false, none⟩) with
      nameHint := some "Owner" },
    { Node.ofKind (.union [2, 3]) with nameHint := some "Pet", description := some "Any pet." },
    { Node.ofKind (.object ⟨[], none, false, none⟩) with nameHint := some "Cat" },
    { Node.ofKind (.object ⟨[], none, false, none⟩) with nameHint := some "Dog" }]

/-- An object with a pet, which it declares in place or shares. -/
def keeper (isInline : Bool) : Node :=
  { Node.ofKind (.object ⟨[⟨"pet", 1, true, false, isInline, none, []⟩,
      ⟨"cat", 2, true, false, true, none, []⟩], some 0, false, none⟩) with
    nameHint := some "Keeper" }

theorem exists_files_pets : ∃ file file',
    generate Template.Library.builtin.render {} pets = .ok file ∧
      generate Template.Library.builtin.render {} (pets.append #[keeper true]) = .ok file' := by
  obtain ⟨file, hfile⟩ : ∃ file, generate Template.Library.builtin.render {} pets = .ok file :=
    exists_eq_ok (by decide +kernel)
  obtain ⟨file', hfile'⟩ : ∃ file',
      generate Template.Library.builtin.render {} (pets.append #[keeper true]) = .ok file' :=
    exists_eq_ok (by decide +kernel)
  exact ⟨file, file', hfile, hfile'⟩

/-- A keeper to whom nothing points changes nothing if the pet is shared, and the faults and the
types are the same if it is declared in place. -/
theorem generate_append_keeper :
    pets.validate = .ok () ∧
      generate Template.Library.builtin.render {} (pets.append #[keeper false]) =
        generate Template.Library.builtin.render {} pets ∧
      ∃ file file', generate Template.Library.builtin.render {} pets = .ok file ∧
        generate Template.Library.builtin.render {} (pets.append #[keeper true]) = .ok file' ∧
        file'.faults = file.faults ∧
        file'.artifacts.map (fun a => (a.typeName, a.base, a.kind)) =
          file.artifacts.map (fun a => (a.typeName, a.base, a.kind)) := by
  have hvalid : pets.validate = .ok () := by decide +kernel
  obtain ⟨-, hquiet, -⟩ :=
    generate_append Template.Library.builtin.render {} pets hvalid #[keeper false]
  obtain ⟨-, -, hsame⟩ :=
    generate_append Template.Library.builtin.render {} pets hvalid #[keeper true]
  obtain ⟨file, file', hfile, hfile'⟩ := exists_files_pets
  exact ⟨hvalid, hquiet (by decide +kernel), file, file', hfile, hfile',
    hsame file file' hfile hfile'⟩

/-- Declared in place by a keeper to whom nothing points, the pet loses its comment: both graphs are
sound, and the types have other code. -/
theorem comment_lost :
    pets.validate = .ok () ∧ (pets.append #[keeper true]).validate = .ok () ∧
      ∃ file file', generate Template.Library.builtin.render {} pets = .ok file ∧
        generate Template.Library.builtin.render {} (pets.append #[keeper true]) = .ok file' ∧
        file'.artifacts ≠ file.artifacts := by
  obtain ⟨file, file', hfile, hfile'⟩ := exists_files_pets
  -- without its comment the code of the union is shorter
  have hsizes : (generate Template.Library.builtin.render {}
      (pets.append #[keeper true])).toOption.map (fun file => file.artifacts.map fun a =>
        if a.typeName = "Pet" then a.code.utf8ByteSize else 0) ≠
      (generate Template.Library.builtin.render {} pets).toOption.map (fun file =>
        file.artifacts.map fun a => if a.typeName = "Pet" then a.code.utf8ByteSize else 0) := by
    decide +kernel
  rw [hfile, hfile'] at hsizes
  refine ⟨by decide +kernel, by decide +kernel, file, file', hfile, hfile', fun heq => hsizes ?_⟩
  simp only [Except.toOption, Option.map_some, heq]

end ContractGen
