import ContractGen.Proofs.Coverage
import ContractGen.Proofs.Output
import ContractGen.Proofs.Verdict
import ContractGen.Schema.Validity

/-!
# Mentioned types

A contract mentions types by name: its base, its subtypes, and what stands in the types of its
members or cases. Names are given while references are rendered, contracts are declared when nodes
are visited, and a node is visited once. A node that is *passed over* at its first visit, because it
gets no contract then, may get a name later; it stays without a contract, and what mentions it
mentions a type that is not declared.

This is the only way in which a mentioned type can be missing (`Walk.Reached.declared_iff`). It
takes a fault, or a subtype that is no type of its own (`Walk.Reached.declared_of_nominal`).
`mentions_declared_iff` says both of generated files, and `lateNames` is a graph without faults
whose file lacks a type.
-/

namespace ContractGen

open Schema (Graph Node NodeId Kind)

namespace Walk

variable {g : Graph} {rootName : Option String} {w w' : Walk} {tasks : List Task}

/-! ### Names and contracts -/

/-- How names and contracts of a walk belong together. -/
structure Accounts (g : Graph) (w : Walk) : Prop where
  /-- What contracts mention are names of nodes. -/
  named : ∀ c ∈ w.contracts, ∀ name ∈ c.mentions, ∃ i, w.resolver.nameOf i = some name
  /-- A named node has a contract or is mentioned in one. -/
  used : ∀ i name, w.resolver.nameOf i = some name →
    i ∈ w.contracts.map Contract.node ∨ ∃ c ∈ w.contracts, name ∈ c.mentions
  /-- A named node has a contract, is a type that is declared wherever it is mentioned, or is the
  base or a subtype of an object. -/
  kind : ∀ i name, w.resolver.nameOf i = some name →
    i ∈ w.contracts.map Contract.node ∨ g.IsNominal i ∨
      ∃ id node, g.node? id = some node ∧ i ∈ g.relatives node

theorem Accounts.congr (h : Accounts g w) (hresolver : w'.resolver = w.resolver)
    (hcontracts : w'.contracts = w.contracts) : Accounts g w' := by
  constructor
  · rw [hresolver, hcontracts]; exact h.named
  · rw [hresolver, hcontracts]; exact h.used
  · rw [hresolver, hcontracts]; exact h.kind

/-- A further contract comes with the names it mentions. -/
theorem Accounts.declare {id : NodeId} {node : Node} {r : Resolver} {hint : Option String}
    {name : String} {body : Contract.Body} (h : Accounts g w) (hself : g.dereference id = id)
    (hnode : g.node? id = some node) (hok : w.resolver.resolve g id hint = .ok (name, r))
    (hbuilt : Built g { w.mark id with resolver := r } w' id node ⟨id, name, body⟩ tasks) :
    Accounts g (w'.declare ⟨id, name, body⟩) := by
  have hall : (w'.declare ⟨id, name, body⟩).contracts = w.contracts ++ [⟨id, name, body⟩] := by
    rw [contracts_declare, hbuilt.part.fills.contracts]
    rfl
  have hgrows := (Resolver.resolve_grows hok).2
  have hself' : id ∈ (w'.declare ⟨id, name, body⟩).contracts.map Contract.node := by simp [hall]
  constructor
  · intro c hc n hn
    rw [hall, List.mem_append, List.mem_singleton] at hc
    rcases hc with hc | rfl
    · obtain ⟨i, hi⟩ := h.named c hc n hn
      exact ⟨i, hbuilt.part.fills.grows.nameOf (hgrows.nameOf hi)⟩
    · exact hbuilt.part.named n hn
  · intro i n hi
    rcases hbuilt.part.fresh i n hi with hi | hmentioned
    · rcases hgrows.old_or_allowed hi with hold | ⟨-, _, rfl, -⟩
      · rw [hall]
        rcases h.used i n hold with hmem | ⟨c, hc, hn⟩
        · exact .inl (by simp only [List.map_append, List.mem_append, hmem, true_or])
        · exact .inr ⟨c, List.mem_append_left _ hc, hn⟩
      · exact .inl (hself.symm ▸ hself')
    · exact .inr ⟨⟨id, name, body⟩, by simp [hall], hmentioned⟩
  · intro i n hi
    rcases hbuilt.part.fills.grows.old_or_allowed hi with hi | ⟨-, _, t, -, -, hkind⟩
    · rcases hgrows.old_or_allowed hi with hold | ⟨-, _, rfl, -⟩
      · rcases h.kind i n hold with hmem | hrest
        · exact .inl (by rw [hall]; simp only [List.map_append, List.mem_append, hmem, true_or])
        · exact .inr hrest
      · exact .inl (hself.symm ▸ hself')
    · rcases hkind with hnominal | ⟨-, hrelative⟩
      · exact .inr (.inl hnominal)
      · exact .inr (.inr ⟨id, node, hnode, hrelative⟩)

/-- **Names and contracts belong together along a walk.** -/
theorem Reached.accounts (h : Reached g rootName w tasks) : Accounts g w := by
  refine h.induct_walk (P := fun w _ => Accounts g w) ?_ ?_
  · constructor <;> simp [contracts, Resolver.nameOf]
  intro w task rest w' more _ ih hvisit
  cases hvisit with
  | again _ => exact ih
  | pass _ _ _ _ => exact ih.congr rfl rfl
  | fail _ _ _ => exact ih.congr (resolver_report _ _) (contracts_report _ _)
  | declare _ hnode hdeclares hok hbuilt =>
    exact ih.declare (dereference_of_declares hnode hdeclares) hnode hok hbuilt

/-! ### Nodes that are passed over -/

/-- A node gets no contract at its first visit. -/
def PassedOver (g : Graph) (rootName : Option String) (i : NodeId) : Prop :=
  ∃ w task rest, FirstVisit g rootName w task rest ∧ g.dereference task.node = i ∧
    ¬ w.Declares g task

/-- A visited node has a contract unless it was passed over. -/
theorem Reached.mem_contracts_or_passedOver (h : Reached g rootName w []) {i : NodeId}
    (hi : i ∈ w.visited) : i ∈ w.contracts.map Contract.node ∨ PassedOver g rootName i := by
  obtain ⟨w₁, task, rest, hfirst, rfl⟩ := h.exists_firstVisit i hi
  by_cases hdeclares : w₁.Declares g task
  · exact .inl ((hfirst.mem_contracts_iff h).2 hdeclares)
  · exact .inr ⟨w₁, task, rest, hfirst, rfl, hdeclares⟩

theorem PassedOver.not_mem_contracts {i : NodeId} (h : PassedOver g rootName i)
    (hend : Reached g rootName w []) : i ∉ w.contracts.map Contract.node := by
  obtain ⟨w₁, task, rest, hfirst, rfl, hno⟩ := h
  exact fun hmem => hno ((hfirst.mem_contracts_iff hend).1 hmem)

/-- **All mentioned types are declared just if no node that was passed over has a name.** -/
theorem Reached.declared_iff (h : Reached g rootName w []) :
    (∀ c ∈ w.contracts, ∀ name ∈ c.mentions, ∃ c' ∈ w.contracts, c'.name = name) ↔
      ∀ i, PassedOver g rootName i → w.resolver.nameOf i = none := by
  constructor
  · intro hdeclared i hpassed
    by_contra hname
    obtain ⟨name, hname⟩ := Option.ne_none_iff_exists'.1 hname
    -- the node is mentioned, and what declares its name is a contract of its own
    obtain hmem | ⟨c, hc, hmentioned⟩ := h.accounts.used i name hname
    · exact hpassed.not_mem_contracts h hmem
    · obtain ⟨c', hc', rfl⟩ := hdeclared c hc name hmentioned
      obtain rfl := h.sound.injective _ _ _ (h.nameOf_of_mem c' hc') hname
      exact hpassed.not_mem_contracts h (List.mem_map_of_mem hc')
  · intro hpassed c hc name hmentioned
    obtain ⟨i, hi⟩ := h.accounts.named c hc name hmentioned
    rcases h.mem_contracts_or_passedOver (h.visited_of_named hi) with hmem | hover
    · obtain ⟨c', hc', rfl⟩ := List.mem_map.1 hmem
      have hname := h.nameOf_of_mem c' hc'
      exact ⟨c', hc', Option.some.inj (hname.symm.trans hi)⟩
    · rw [hpassed i hover] at hi
      cases hi

theorem declares_of_isNominal {id : NodeId} {node : Node} {isRoot : Bool}
    (h : node.isNominal = true) : w.declares id node isRoot = true := by
  cases hkind : node.kind <;> simp_all [declares, isNamedUnion, Node.isNominal]

/-- A type that is declared wherever it is mentioned is not passed over without a fault. -/
theorem PassedOver.not_isNominal {i : NodeId} (h : PassedOver g rootName i)
    (hend : Reached g rootName w []) (hfaults : w.faults = []) : ¬ g.IsNominal i := by
  rintro ⟨node, hnode, hnominal⟩
  obtain ⟨w₁, task, rest, hfirst, rfl, hno⟩ := h
  obtain ⟨w₂, more, hvisits, hsteps⟩ := hfirst.exists_visits hend
  have hfaults₂ : w₂.faults = [] := faults_eq_nil_of_steps hsteps hfaults
  cases hvisits with
  | again hseen => exact hfirst.new hseen
  | pass _ hpass _ _ =>
    have hdeclares := (hpass node hnode).2
    rw [declares_of_isNominal hnominal] at hdeclares
    cases hdeclares
  | fail _ _ _ => exact faults_report_ne_nil _ _ hfaults₂
  | declare _ hnode hdeclares hok _ => exact hno ⟨_, _, _, hnode, hdeclares, hok⟩

/-- **Without faults all mentioned types are declared**, if bases and subtypes are types that are
declared wherever they are mentioned. -/
theorem Reached.declared_of_nominal (h : Reached g rootName w []) (hfaults : w.faults = [])
    (hrelatives : ∀ id node, g.node? id = some node → ∀ i ∈ g.relatives node, g.IsNominal i) :
    ∀ c ∈ w.contracts, ∀ name ∈ c.mentions, ∃ c' ∈ w.contracts, c'.name = name := by
  rw [h.declared_iff]
  intro i hpassed
  by_contra hname
  obtain ⟨name, hname⟩ := Option.ne_none_iff_exists'.1 hname
  obtain hmem | hnominal | ⟨id, node, hnode, hi⟩ := h.accounts.kind i name hname
  · exact hpassed.not_mem_contracts h hmem
  · exact hpassed.not_isNominal h hfaults hnominal
  · exact hpassed.not_isNominal h hfaults (hrelatives id node hnode i hi)

end Walk

/-! ### Sound graphs -/

namespace Schema.Graph

theorem isNominal_base_of_validate {g : Graph} (h : g.validate = .ok ()) {id base : NodeId}
    {shape : Shape} (hshape : g.shape? id = some shape) (hbase : shape.base = some base) :
    g.IsNominal (g.dereference base) := by
  obtain ⟨shape', hshape'⟩ := exists_shape_of_base h hshape hbase
  obtain ⟨node, hnode, hkind⟩ := Option.bind_eq_some_iff.1 hshape'
  refine ⟨node, hnode, ?_⟩
  cases hk : node.kind <;> simp_all [Node.shape?, Node.isNominal]

/-- All subtypes that objects tell apart are types that are declared wherever they are
mentioned. -/
def SubtypesNominal (g : Graph) : Prop :=
  ∀ node ∈ g.nodes.toList, ∀ shape ∈ node.shape?, ∀ i ∈ g.subtypeNodes shape.discriminator,
    g.IsNominal i

instance (g : Graph) : Decidable g.SubtypesNominal :=
  inferInstanceAs (Decidable (∀ node ∈ g.nodes.toList, ∀ shape ∈ node.shape?, _))

theorem isNominal_of_mem_relatives {g : Graph} (h : g.validate = .ok ()) (hsub : g.SubtypesNominal)
    {id i : NodeId} {node : Node} (hnode : g.node? id = some node) (hi : i ∈ g.relatives node) :
    g.IsNominal i := by
  cases hshape : node.shape? with
  | none => simp [relatives, hshape] at hi
  | some shape =>
    have hshape' : g.shape? id = some shape := by rw [shape?, hnode, Option.bind_some, hshape]
    simp only [relatives, hshape, List.mem_append, List.mem_map, Option.mem_toList] at hi
    obtain ⟨base, hbase, rfl⟩ | hi := hi
    · exact isNominal_base_of_validate h hshape' hbase
    · exact hsub node (Array.mem_toList_iff.2 (Array.mem_of_getElem? hnode)) shape hshape i hi

end Schema.Graph

/-! ### Files -/

/-- Every type that a contract of a plan mentions is declared in a file. -/
def GeneratedFile.DeclaresMentions (file : GeneratedFile) (p : Plan) : Prop :=
  ∀ c ∈ p.contracts, ∀ name ∈ c.mentions,
    ∃ a ∈ file.artifacts, a.kind.category = .contract ∧ a.typeName = name

open Walk in
/-- **Which files declare all types that they mention.** The file of a sound graph does just if no
node that is passed over at its first visit has a name at the end of the walk. It does in particular
if there are no faults and all subtypes are types that are declared wherever they are mentioned. -/
theorem mentions_declared_iff {ε : Type} (render : Renderer ε) (s : Settings) (g : Graph)
    (file : GeneratedFile) (hvalid : g.validate = .ok ()) (h : generate render s g = .ok file) :
    ∃ (p : Plan) (w : Walk), Plan.ofGraph g s.rootTypeName = some p ∧
      Reached g s.rootTypeName w [] ∧
      (file.DeclaresMentions p ↔
        ∀ i, PassedOver g s.rootTypeName i → w.resolver.nameOf i = none) ∧
      (file.faults = [] → g.SubtypesNominal → file.DeclaresMentions p) := by
  obtain ⟨p, hp, hartifacts, hpfaults⟩ := generate_eq_ok h
  obtain ⟨w, hw, hcontracts, hwfaults, -⟩ := Plan.reached_of_ofGraph hp
  have hdeclares : file.DeclaresMentions p ↔
      ∀ c ∈ w.contracts, ∀ name ∈ c.mentions, ∃ c' ∈ w.contracts, c'.name = name := by
    simp only [GeneratedFile.DeclaresMentions, exists_contract_iff hartifacts, hcontracts]
  refine ⟨p, w, hp, hw, hdeclares.trans hw.declared_iff, fun hfaults hsub => ?_⟩
  refine hdeclares.2 (hw.declared_of_nominal ?_ fun id node hnode i hi => ?_)
  · rw [← hwfaults, ← hpfaults, hfaults]
  · exact Graph.isNominal_of_mem_relatives hvalid hsub hnode hi

/-- A kennel of animals, told apart as cats and dogs. -/
def kennel : Graph where
  root := 0
  nodes := #[
    Node.ofKind (.array 1),
    { Node.ofKind (.object {
        properties := [⟨"friends", 0, true, false, false, none, []⟩]
        base := none
        isAbstract := true
        discriminator := some ⟨"type", [⟨"cat", 2⟩, ⟨"dog", 3⟩]⟩ }) with
      nameHint := some "Animal" },
    Node.ofKind (.object ⟨[], some 1, false, none⟩),
    Node.ofKind (.object ⟨[], some 1, false, none⟩)]

/-- The file of the kennel declares cats, dogs and their base. -/
theorem mentions_declared_iff_kennel :
    ∃ file p, kennel.validate = .ok () ∧ generate blankRenderer {} kennel = .ok file ∧
      Plan.ofGraph kennel none = some p ∧
      p.contracts.map Contract.mentions = [["Cat", "Dog", "Animal"], ["Animal"], ["Animal"]] ∧
      file.DeclaresMentions p := by
  have hvalid : kennel.validate = .ok () := by decide +kernel
  obtain ⟨file, hfile⟩ : ∃ file, generate blankRenderer {} kennel = .ok file :=
    exists_eq_ok (by decide +kernel)
  obtain ⟨p, -, hp, -, -, hdeclares⟩ := mentions_declared_iff _ _ _ _ hvalid hfile
  obtain ⟨p', hp', -, hfaults⟩ := generate_eq_ok hfile
  obtain rfl := Option.some.inj (hp.symm.trans hp')
  have hplan : (Plan.ofGraph kennel none).map
      (fun p => (p.contracts.map Contract.mentions, p.faults)) =
      some ([["Cat", "Dog", "Animal"], ["Animal"], ["Animal"]], []) := by decide +kernel
  rw [hp] at hplan
  obtain ⟨hmentions, hnone⟩ : p.contracts.map Contract.mentions =
      [["Cat", "Dog", "Animal"], ["Animal"], ["Animal"]] ∧ p.faults = [] := by simpa using hplan
  exact ⟨file, p, hvalid, hfile, hp, hmentions,
    hdeclares (hfaults.trans hnone) (by decide +kernel)⟩

/-- An animal with a nickname, and a tag whose only subtype is what nicknames are. Nicknames have no
name of their own: they are visited before the tag gives them one. -/
def lateNames : Graph where
  root := 0
  nodes := #[
    { Node.ofKind (.object ⟨[⟨"nickname", 1, true, false, false, none, []⟩,
        ⟨"tag", 3, true, false, false, none, []⟩], none, false, none⟩) with
      nameHint := some "Animal" },
    Node.ofKind (.union [2]), Node.ofKind (.primitive .string none),
    { Node.ofKind (.object ⟨[], none, false, some ⟨"type", [⟨"nick", 1⟩]⟩⟩) with
      nameHint := some "Tag" }]

/-- The file of a sound graph without faults may mention a type that it does not declare. -/
theorem lateNames_not_declared :
    ∃ file p, lateNames.validate = .ok () ∧ generate blankRenderer {} lateNames = .ok file ∧
      Plan.ofGraph lateNames none = some p ∧ file.faults = [] ∧ ¬ file.DeclaresMentions p := by
  obtain ⟨file, hfile⟩ : ∃ file, generate blankRenderer {} lateNames = .ok file :=
    exists_eq_ok (by decide +kernel)
  obtain ⟨p, hp, hartifacts, hfaults⟩ := generate_eq_ok hfile
  have hplan : (Plan.ofGraph lateNames none).map (fun p => (p.contracts.map Contract.name,
      p.contracts.map Contract.mentions, p.faults)) =
      some (["Animal", "Tag"], [["Tag"], ["Nick"]], []) := by decide +kernel
  rw [hp] at hplan
  obtain ⟨hnames, hmentions, hnone⟩ : p.contracts.map Contract.name = ["Animal", "Tag"] ∧
      p.contracts.map Contract.mentions = [["Tag"], ["Nick"]] ∧ p.faults = [] := by
    simpa using hplan
  refine ⟨file, p, by decide +kernel, hfile, hp, hfaults.trans hnone, fun hdeclares => ?_⟩
  obtain ⟨tag, htag, hnick⟩ : ∃ c ∈ p.contracts, c.mentions = ["Nick"] :=
    List.mem_map.1 (by simp [hmentions])
  obtain ⟨c, hc, hname⟩ :=
    (exists_contract_iff hartifacts).1 (hdeclares tag htag "Nick" (by simp [hnick]))
  have hmem : "Nick" ∈ p.contracts.map Contract.name := hname ▸ List.mem_map_of_mem hc
  rw [hnames] at hmem
  exact absurd hmem (by decide)

end ContractGen
