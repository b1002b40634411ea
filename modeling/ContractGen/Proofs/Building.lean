import ContractGen.Plan
import ContractGen.Proofs.Needs

/-!
# Building contracts

Before a contract is declared, its parts are put together: base, members and subtypes of a class,
or the cases of a union. `Walk.Part` says what is done for one part: which nodes get names, which
names the part mentions, and what is to be visited for it. Parts follow each other (`Part.trans`),
so what is done for a whole contract (`Walk.Built`) is put together in the same way
(`declareRecord_built`, `declareUnion_built`).
-/

namespace ContractGen

open Schema (Graph Node NodeId Kind)
open Contract (Member Subtype Hierarchy Record Enumeration Case Union)

/-- The candidates for the nodes that a task leads to. -/
def Task.Offers (g : Graph) (r : Resolver) (task : Task) (i : NodeId) (c : String) : Prop :=
  ∃ h, Resolver.Leads g r (g.dereference task.node) task.hint i h ∧
    Resolver.candidate? g i h = some c

/-- The node at a position is declared as a type wherever it is mentioned. -/
def Schema.Graph.IsNominal (g : Graph) (id : NodeId) : Prop :=
  ∃ node, g.node? id = some node ∧ node.isNominal = true

instance (g : Graph) (id : NodeId) : Decidable (g.IsNominal id) :=
  decidable_of_iff ((g.node? id).any Node.isNominal = true) (Option.any_eq_true _ _)

namespace Schema.Graph

/-- The nodes of the subtypes that a discriminator tells apart. -/
def subtypeNodes (g : Graph) (discriminator : Option Schema.Discriminator) : List NodeId :=
  (discriminator.map fun d => d.mapping.map fun m => g.dereference m.target).getD []

/-- The nodes of the base and the subtypes that a node declares. -/
def relatives (g : Graph) (node : Node) : List NodeId :=
  match node.shape? with
  | some shape => shape.base.toList.map g.dereference ++ g.subtypeNodes shape.discriminator
  | none => []

/-- The nodes that a node mentions in its contract: base, shown properties and subtypes of an
object, variants of a union, items of an array. -/
def edges (g : Graph) (id : NodeId) : List NodeId :=
  match (g.node? id).map Node.kind with
  | some (.object shape) =>
    shape.base.toList.map g.dereference ++
      (shape.properties.filter fun p => Walk.inheritedProperty g id != some p.name).map
        (fun p => g.dereference p.schema) ++
      g.subtypeNodes shape.discriminator
  | some (.union variants) => variants.map g.dereference
  | some (.array items) => [g.dereference items]
  | _ => []

/-- The pointers by which a node mentions others in its contract. -/
def pointers (g : Graph) (id : NodeId) : List NodeId :=
  match (g.node? id).map Node.kind with
  | some (.object shape) =>
    shape.base.toList ++
      (shape.properties.filter fun p => Walk.inheritedProperty g id != some p.name).map
        (·.schema) ++
      (shape.discriminator.map fun d => d.mapping.map (·.target)).getD []
  | some (.union variants) => variants
  | some (.array items) => [items]
  | _ => []

theorem edges_eq_map_pointers (g : Graph) (id : NodeId) :
    g.edges id = (g.pointers id).map g.dereference := by
  simp only [edges, pointers]
  split
  · rename_i shape _
    cases hd : shape.discriminator <;> simp [subtypeNodes, Function.comp_def]
  · rfl
  · rfl
  · rfl

theorem pointers_sublist {g : Graph} {id : NodeId} {node : Node} (h : g.node? id = some node) :
    (g.pointers id).Sublist node.kind.children := by
  simp only [pointers, h, Option.map_some]
  cases hkind : node.kind with
  | object shape =>
    exact ((List.Sublist.refl _).append (List.filter_sublist.map _)).append (.refl _)
  | enumeration values => simp
  | union variants => exact .refl _
  | primitive type format => simp
  | array items => exact .refl _
  | reference target => simp

end Schema.Graph

namespace Walk

variable {g : Graph} {w w₁ w' : Walk} {P Q : NodeId → String → Prop}

/-- The contracts declared so far. -/
def contracts (w : Walk) : List Contract := w.events.filterMap contractOf?

@[simp] theorem contracts_declare (w : Walk) (c : Contract) :
    (w.declare c).contracts = w.contracts ++ [c] := by
  simp [contracts, declare, contractOf?]

@[simp] theorem faults_declare (w : Walk) (c : Contract) : (w.declare c).faults = w.faults := by
  simp [faults, declare, faultOf?]

/-! ### Work before a declaration -/

/-- `w'` comes from `w` without a visit and without a declaration: names may be given, and faults
may be noted. -/
structure Fills (P : NodeId → String → Prop) (w w' : Walk) : Prop where
  /-- No node is visited. -/
  visited : w'.visited = w.visited
  /-- No contract is declared. -/
  contracts : w'.contracts = w.contracts
  /-- Faults stay. -/
  faults : w.faults <+: w'.faults
  /-- Names are given as `P` allows. -/
  grows : Resolver.Grows P w.resolver w'.resolver

namespace Fills

theorem refl (P : NodeId → String → Prop) (w : Walk) : Fills P w w :=
  ⟨rfl, rfl, List.prefix_rfl, .refl P _⟩

theorem trans (h : Fills P w w₁) (h' : Fills P w₁ w') : Fills P w w' :=
  ⟨h'.visited.trans h.visited, h'.contracts.trans h.contracts, h.faults.trans h'.faults,
    h.grows.trans h'.grows⟩

theorem mono (hPQ : ∀ i c, P i c → Q i c) (h : Fills P w w') : Fills Q w w' :=
  ⟨h.visited, h.contracts, h.faults, h.grows.mono hPQ⟩

theorem faults_eq_nil (h : Fills P w w') (hw : w'.faults = []) : w.faults = [] :=
  List.prefix_nil.1 (hw ▸ h.faults)

end Fills

theorem report_cases (w : Walk) (f : Fault) :
    w.report f = w ∧ w.faults ≠ [] ∨
      w.report f = { w with events := w.events ++ [.fault f] } := by
  unfold report
  split
  · rename_i hseen
    refine Or.inl ⟨rfl, fun hnil => ?_⟩
    simp [hnil] at hseen
  · exact Or.inr rfl

@[simp] theorem resolver_report (w : Walk) (f : Fault) : (w.report f).resolver = w.resolver := by
  rcases report_cases w f with ⟨h, -⟩ | h <;> rw [h]

theorem report_fills (P : NodeId → String → Prop) (w : Walk) (f : Fault) :
    Fills P w (w.report f) := by
  rcases report_cases w f with ⟨h, -⟩ | h
  · rw [h]; exact .refl P w
  · rw [h]
    exact ⟨rfl, by simp [contracts, contractOf?], by simp [Walk.faults, faultOf?], .refl P _⟩

@[simp] theorem visited_report (w : Walk) (f : Fault) : (w.report f).visited = w.visited :=
  (report_fills (fun _ _ => True) w f).visited

@[simp] theorem contracts_report (w : Walk) (f : Fault) : (w.report f).contracts = w.contracts :=
  (report_fills (fun _ _ => True) w f).contracts

theorem faults_report_ne_nil (w : Walk) (f : Fault) : (w.report f).faults ≠ [] := by
  rcases report_cases w f with ⟨h, hne⟩ | h
  · rw [h]; exact hne
  · rw [h]; simp [Walk.faults, faultOf?]

@[simp] theorem resolver_reportAll (w : Walk) (fs : List Fault) :
    (w.reportAll fs).resolver = w.resolver := by
  induction fs generalizing w with
  | nil => rfl
  | cons f fs ih => exact (ih (w.report f)).trans (resolver_report w f)

theorem name?_cases {id : NodeId} {hint : Option String} {out : Option String}
    (h : w.name? g id hint = (w', out)) :
    (∃ name r', w.resolver.resolve g id hint = .ok (name, r') ∧ out = some name ∧
        w' = { w with resolver := r' }) ∨
      ∃ fault, w.resolver.resolve g id hint = .error fault ∧ out = none ∧ w' = w.report fault := by
  unfold name? at h
  split at h
  · rename_i name r' hok
    obtain ⟨rfl, rfl⟩ := by simpa using h
    exact Or.inl ⟨name, r', hok, rfl, rfl⟩
  · rename_i fault herr
    obtain ⟨rfl, rfl⟩ := by simpa using h
    exact Or.inr ⟨fault, herr, rfl, rfl⟩

/-! ### Parts of a contract -/

/-- The candidates that tasks offer for nodes that are declared wherever they are mentioned, and for
nodes of the tasks themselves if they are in `K`. -/
def Brings (g : Graph) (r : Resolver) (tasks : List Task) (K : NodeId → Prop) (i : NodeId)
    (c : String) : Prop :=
  ∃ task ∈ tasks, task.Offers g r i c ∧ (g.IsNominal i ∨ g.dereference task.node = i ∧ K i)

theorem Brings.mono {r r' : Resolver} {tasks tasks' : List Task} {K K' : NodeId → Prop}
    {i : NodeId} {c : String} (hr : Resolver.Grows P r r') (htasks : tasks ⊆ tasks')
    (hK : ∀ i, K i → K' i) (h : Brings g r' tasks K i c) : Brings g r tasks' K' i c := by
  obtain ⟨task, htask, ⟨hint, hlead, hc⟩, hi⟩ := h
  exact ⟨task, htasks htask, ⟨hint, hlead.of_grows hr, hc⟩, hi.imp_right (And.imp_right (hK i))⟩

/-- What is done for a part of a contract: nodes that its tasks lead to get names, and `names` are
what the part mentions. -/
structure Part (g : Graph) (K : NodeId → Prop) (w w' : Walk) (tasks : List Task)
    (names : List String) : Prop where
  /-- Names are given as the tasks bring them. -/
  fills : Fills (Brings g w.resolver tasks K) w w'
  /-- What is mentioned is the name of a node. -/
  named : ∀ name ∈ names, ∃ i, w'.resolver.nameOf i = some name
  /-- Every new name is mentioned. -/
  fresh : ∀ i name, w'.resolver.nameOf i = some name →
    w.resolver.nameOf i = some name ∨ name ∈ names
  /-- The walk does not start again. -/
  nested : ∀ task ∈ tasks, task.isRoot = false

namespace Part

variable {K K' : NodeId → Prop} {tasks tasks' : List Task} {names names' : List String}

theorem refl (g : Graph) (K : NodeId → Prop) (w : Walk) : Part g K w w [] [] :=
  ⟨.refl _ w, by simp, fun _ _ h => .inl h, by simp⟩

theorem trans (h : Part g K w w₁ tasks names) (h' : Part g K w₁ w' tasks' names') :
    Part g K w w' (tasks ++ tasks') (names ++ names') where
  fills := by
    refine .trans (h.fills.mono fun i c hc => ?_) (h'.fills.mono fun i c hc => ?_)
    · exact hc.mono (.refl (fun _ _ => True) _) (List.subset_append_left _ _) (fun _ h => h)
    · exact hc.mono h.fills.grows (List.subset_append_right _ _) (fun _ h => h)
  named name hname := by
    rcases List.mem_append.1 hname with hname | hname
    · obtain ⟨i, hi⟩ := h.named name hname
      exact ⟨i, h'.fills.grows.nameOf hi⟩
    · exact h'.named name hname
  fresh i name hi := by
    rw [List.mem_append]
    rcases h'.fresh i name hi with hi | hname
    · rcases h.fresh i name hi with hi | hname
      · exact .inl hi
      · exact .inr (.inl hname)
    · exact .inr (.inr hname)
  nested task htask := by
    rcases List.mem_append.1 htask with htask | htask
    · exact h.nested task htask
    · exact h'.nested task htask

theorem mono (hK : ∀ i, K i → K' i) (h : Part g K w w' tasks names) : Part g K' w w' tasks names :=
  ⟨h.fills.mono fun _ _ hc => hc.mono (.refl (fun _ _ => True) _) (fun _ h => h) hK, h.named,
    h.fresh, h.nested⟩

theorem congr_names (hnames : ∀ name, name ∈ names ↔ name ∈ names')
    (h : Part g K w w' tasks names) : Part g K w w' tasks names' :=
  ⟨h.fills, fun name hname => h.named name ((hnames name).2 hname),
    fun i name hi => (h.fresh i name hi).imp_right (hnames name).1, h.nested⟩

theorem of_resolver_eq (h : Part g K w w₁ tasks names) (hvisited : w'.visited = w₁.visited)
    (hevents : w'.events = w₁.events) (hnames : w'.resolver.names = w₁.resolver.names)
    (htaken : w'.resolver.taken = w₁.resolver.taken) : Part g K w w' tasks names where
  fills :=
    ⟨hvisited.trans h.fills.visited,
      (by rw [Walk.contracts, hevents]; exact h.fills.contracts),
      (by rw [Walk.faults.eq_def w', hevents]; exact h.fills.faults),
      h.fills.grows.trans (.same hnames htaken)⟩
  named name hname := by
    simpa only [Resolver.nameOf_of_names_eq hnames] using h.named name hname
  fresh i name hi := h.fresh i name (by rwa [Resolver.nameOf_of_names_eq hnames] at hi)
  nested := h.nested

theorem report (h : Part g K w w₁ tasks names) (f : Fault) :
    Part g K w (w₁.report f) tasks names where
  fills := h.fills.trans (report_fills _ w₁ f)
  named := by simpa using h.named
  fresh := by simpa using h.fresh
  nested := h.nested

theorem reportAll (h : Part g K w w₁ tasks names) (fs : List Fault) :
    Part g K w (w₁.reportAll fs) tasks names := by
  induction fs generalizing w₁ with
  | nil => exact h
  | cons f fs ih => exact ih (h.report f)

end Part

theorem name?_part {id : NodeId} {hint : String} {out : Option String}
    (h : w.name? g id (some hint) = (w', out)) :
    Part g (· = g.dereference id) w w' (if out.isSome then [⟨id, some hint, false⟩] else [])
      out.toList ∧
    w'.resolver.features = w.resolver.features ∧ (out = none → w'.faults ≠ []) := by
  obtain ⟨name, r', hok, rfl, rfl⟩ | ⟨fault, -, rfl, rfl⟩ := name?_cases h
  · obtain ⟨hname, hgrows⟩ := Resolver.resolve_grows hok
    refine ⟨⟨⟨rfl, rfl, List.prefix_rfl, hgrows.mono ?_⟩, ?_, ?_, by simp⟩,
      (Resolver.resolve_unchanged hok).1, by simp⟩
    · rintro i c ⟨rfl, hc⟩
      exact ⟨_, List.mem_singleton_self _, ⟨some hint, .here, hc⟩, .inr ⟨rfl, rfl⟩⟩
    · intro n hn
      obtain rfl : n = name := by simpa using hn
      exact ⟨_, hname⟩
    · intro i n hi
      rcases hgrows.old_or_allowed hi with hold | ⟨-, c, rfl, -⟩
      · exact .inl hold
      · rw [hname] at hi
        exact .inr (by simpa using hi.symm)
  · refine ⟨⟨report_fills _ w fault, by simp, fun i n hi => ?_, by simp⟩, by simp, ?_⟩
    · exact .inl (by simpa using hi)
    · exact fun _ => faults_report_ne_nil w fault

theorem typeRef_part {id : NodeId} {hint : String} {type : Option TypeRef}
    (h : w.typeRef g id hint = some (w', type)) :
    Part g (fun _ => False) w w' (if type.isSome then [⟨id, some hint, false⟩] else [])
      (type.getD .unknown).names ∧
    w'.resolver.features = w.resolver.features.withRef (type.getD .unknown) ∧
    (type = none → w'.faults ≠ [] ∧
      ∃ r' fault, w.resolver.typeRef g id (some hint) = some (r', .error fault)) := by
  simp only [typeRef, Option.bind_eq_bind, Option.bind_eq_some_iff, Prod.exists] at h
  obtain ⟨r', out, hout, h⟩ := h
  have hr := Resolver.descend_rendered hout
  cases out with
  | ok t =>
    obtain ⟨rfl, rfl⟩ := by simpa using h
    have hpart : Part g (fun _ => False) w { w with resolver := r' } [⟨id, some hint, false⟩]
        t.names := by
      refine ⟨⟨rfl, rfl, List.prefix_rfl, hr.grows.mono ?_⟩, hr.named, hr.fresh, by simp⟩
      rintro i c ⟨h, node, hlead, hnode, hnominal, hc⟩
      exact ⟨_, List.mem_singleton_self _, ⟨h, hlead, hc⟩, .inl ⟨node, hnode, hnominal⟩⟩
    have htaken : Part g (fun _ => False) w { w with resolver := r'.takeFaults.2 }
        [⟨id, some hint, false⟩] t.names := hpart.of_resolver_eq rfl rfl rfl rfl
    refine ⟨htaken.reportAll _, ?_, by simp⟩
    rw [resolver_reportAll]
    exact hr.features
  | error fault =>
    obtain ⟨rfl, rfl⟩ := by simpa using h
    obtain rfl := hr.unchanged fault rfl
    have hpart : Part g (fun _ => False) w { w with resolver := w.resolver.takeFaults.2 } [] [] :=
      (Part.refl g (fun _ => False) w).of_resolver_eq rfl rfl rfl rfl
    -- the part mentions nothing: an unknown type stands for the one that failed
    refine ⟨(hpart.reportAll _).report fault, ?_, fun _ => ⟨faults_report_ne_nil _ fault, ?_⟩⟩
    · simp [Resolver.takeFaults, Features.withRef, TypeRef.arities]
    · exact ⟨_, fault, hout⟩

/-- The tasks are for some of the pointers, in their order, and for all of them if there are no
faults. -/
structure Awaits (w : Walk) (pointers : List NodeId) (tasks : List Task) : Prop where
  /-- The tasks are for some of the pointers. -/
  sublist : (tasks.map Task.node).Sublist pointers
  /-- Without faults they are for all of them. -/
  all : w.faults = [] → tasks.map Task.node = pointers

namespace Awaits

variable {pointers pointers' : List NodeId} {tasks tasks' : List Task}

theorem nil (w : Walk) : w.Awaits [] [] := ⟨.refl _, fun _ => rfl⟩

theorem append (h : w₁.Awaits pointers tasks) (h' : w'.Awaits pointers' tasks')
    (hfaults : w'.faults = [] → w₁.faults = []) :
    w'.Awaits (pointers ++ pointers') (tasks ++ tasks') where
  sublist := by rw [List.map_append]; exact h.sublist.append h'.sublist
  all hw := by rw [List.map_append, h.all (hfaults hw), h'.all hw]

/-- What is given for a pointer decides whether it is awaited; nothing is given only with a
fault. -/
theorem ofOption {α : Type} {out : Option α} (id : NodeId) (hint : Option String)
    (h : out = none → w.faults ≠ []) :
    w.Awaits [id] (if out.isSome then [⟨id, hint, false⟩] else []) := by
  cases out with
  | some a => exact ⟨.refl _, fun _ => rfl⟩
  | none => exact ⟨List.nil_sublist _, fun hw => absurd hw (h rfl)⟩

end Awaits

/-- A reference to a node cannot be rendered, now or after further names. -/
def Fails (g : Graph) (w : Walk) (id : NodeId) : Prop :=
  ∃ r hint r' fault, Resolver.Grows (fun _ _ => True) w.resolver r ∧
    r.typeRef g id hint = some (r', .error fault)

theorem Fails.of_grows {id : NodeId} (hg : Resolver.Grows P w.resolver w'.resolver)
    (h : w'.Fails g id) : w.Fails g id := by
  obtain ⟨r, hint, r', fault, hr, hfail⟩ := h
  exact ⟨r, hint, r', fault, (hg.mono fun _ _ _ => trivial).trans hr, hfail⟩

/-- What is done for the contract of a node before it is declared. -/
structure Built (g : Graph) (w w' : Walk) (id : NodeId) (node : Node) (c : Contract)
    (tasks : List Task) : Prop where
  /-- Besides what is declared wherever it is mentioned, the base and the subtypes get names. -/
  part : Part g (· ∈ g.relatives node) w w' tasks c.mentions
  /-- What the contract needs is recorded. -/
  features : w'.resolver.features = w.resolver.features.withContract c
  /-- What the node mentions is to be visited. -/
  awaits : w'.Awaits (g.pointers id) tasks
  /-- A case is to be visited unless its type has a fault. -/
  pushed : ∀ variants, node.kind = .union variants → ∀ variant ∈ variants,
    (∃ task ∈ tasks, task.node = variant) ∨ w.Fails g variant

theorem map_dereference_eq_edges {id : NodeId} {tasks : List Task}
    (h : tasks.map Task.node = g.pointers id) :
    tasks.map (fun t => g.dereference t.node) = g.edges id := by
  rw [Graph.edges_eq_map_pointers, ← h, List.map_map]
  rfl

/-! ### Classes -/

theorem member_part {p : Schema.Property} {m : Member} {tasks : List Task}
    (h : w.member g p = some (w', m, tasks)) :
    Part g (fun _ => False) w w' tasks m.type.names ∧
    w'.resolver.features = w.resolver.features.withMember m ∧ w'.Awaits [p.schema] tasks := by
  simp only [member, Option.bind_eq_bind, Option.bind_eq_some_iff, Prod.exists] at h
  obtain ⟨w₁, type, htype, h⟩ := h
  obtain ⟨hpart, hfeatures, hnone⟩ := typeRef_part htype
  obtain ⟨rfl, rfl, rfl⟩ := by simpa using h
  refine ⟨hpart.of_resolver_eq rfl rfl rfl rfl, ?_, ?_⟩
  · simp only [Features.withMember, hfeatures]
  · exact .ofOption p.schema (some p.name) fun htype => (hnone htype).1

theorem members_part {ps : List Schema.Property} {ms : List Member} {tasks : List Task}
    (h : w.members g ps = some (w', ms, tasks)) :
    Part g (fun _ => False) w w' tasks (TypeRef.namesAll (ms.map Member.type)) ∧
    w'.resolver.features = ms.foldl Features.withMember w.resolver.features ∧
    w'.Awaits (ps.map (·.schema)) tasks := by
  induction ps generalizing w w' ms tasks with
  | nil =>
    obtain ⟨rfl, rfl, rfl⟩ := by simpa [members] using h
    exact ⟨.refl _ _ w, rfl, .nil w⟩
  | cons p ps ih =>
    simp only [members, Option.bind_eq_bind, Option.bind_eq_some_iff, Prod.exists] at h
    obtain ⟨w₁, m, ts, hfirst, w₂, ms', more, hrest, h⟩ := h
    obtain ⟨rfl, rfl, rfl⟩ := by simpa using h
    obtain ⟨hpart, hfeatures, hawaits⟩ := member_part hfirst
    obtain ⟨hpart', hfeatures', hawaits'⟩ := ih hrest
    exact ⟨hpart.trans hpart', by rw [hfeatures', hfeatures, List.foldl_cons],
      hawaits.append hawaits' hpart'.fills.faults_eq_nil⟩

theorem base_part {typeName : String} {base : Option NodeId} {name : Option String}
    {tasks : List Task} (h : w.base g typeName base = (w', name, tasks)) :
    Part g (· ∈ base.map g.dereference) w w' tasks name.toList ∧
    w'.resolver.features = w.resolver.features ∧ w'.Awaits base.toList tasks := by
  cases base with
  | none =>
    obtain ⟨rfl, rfl, rfl⟩ := by simpa [Walk.base] using h
    exact ⟨.refl _ _ w, rfl, .nil w⟩
  | some id =>
    cases hname : w.name? g id (some (typeName ++ "Base")) with
    | mk w₁ out =>
      obtain ⟨hpart, hfeatures, hnone⟩ := name?_part hname
      have hpart' : Part g (· ∈ (some id).map g.dereference) w w₁
          (if out.isSome then [⟨id, some (typeName ++ "Base"), false⟩] else []) out.toList :=
        hpart.mono (by simp [eq_comm])
      have hawaits : w₁.Awaits [id]
          (if out.isSome then [⟨id, some (typeName ++ "Base"), false⟩] else []) :=
        .ofOption id _ hnone
      cases out with
      | some n =>
        obtain ⟨rfl, rfl, rfl⟩ := by simpa [Walk.base, hname] using h
        exact ⟨hpart', hfeatures, hawaits⟩
      | none =>
        obtain ⟨rfl, rfl, rfl⟩ := by simpa [Walk.base, hname] using h
        exact ⟨hpart', hfeatures, hawaits⟩

theorem subtypes_part {mapping : List Schema.Mapping} {subs : List Subtype} {tasks : List Task}
    (h : w.subtypes g mapping = (w', subs, tasks)) :
    Part g (· ∈ mapping.map fun m => g.dereference m.target) w w' tasks
      (subs.map Subtype.typeName) ∧
    w'.resolver.features = w.resolver.features ∧ w'.Awaits (mapping.map (·.target)) tasks := by
  induction mapping generalizing w w' subs tasks with
  | nil =>
    obtain ⟨rfl, rfl, rfl⟩ := by simpa [subtypes] using h
    exact ⟨.refl _ _ w, rfl, .nil w⟩
  | cons m rest ih =>
    cases hname : w.name? g m.target (some m.value) with
    | mk w₁ out =>
      obtain ⟨hpart, hfeatures, hnone⟩ := name?_part hname
      have hpart₁ : Part g (· ∈ (m :: rest).map fun m => g.dereference m.target) w w₁
          (if out.isSome then [⟨m.target, some m.value, false⟩] else []) out.toList :=
        hpart.mono (by simp)
      cases hrest : w₁.subtypes g rest with
      | mk w₂ more =>
        obtain ⟨hpart', hfeatures', hawaits'⟩ := ih hrest
        have hawaits : w₂.Awaits ((m :: rest).map (·.target))
            ((if out.isSome then [⟨m.target, some m.value, false⟩] else []) ++ more.2) :=
          (Awaits.ofOption m.target _ hnone).append hawaits' hpart'.fills.faults_eq_nil
        have hpart₂ : Part g (· ∈ (m :: rest).map fun m => g.dereference m.target) w₁ w₂
            more.2 (more.1.map Subtype.typeName) :=
          hpart'.mono fun i hi => List.mem_cons_of_mem _ hi
        cases out with
        | some n =>
          obtain ⟨rfl, rfl, rfl⟩ := by simpa [subtypes, hname, hrest] using h
          exact ⟨hpart₁.trans hpart₂, hfeatures'.trans hfeatures, hawaits⟩
        | none =>
          obtain ⟨rfl, rfl, rfl⟩ := by simpa [subtypes, hname, hrest] using h
          exact ⟨hpart₁.trans hpart₂, hfeatures'.trans hfeatures, hawaits⟩

theorem hierarchy_part {d : Option Schema.Discriminator} {hierarchy : Option Hierarchy}
    {tasks : List Task} (h : w.hierarchy g d = (w', hierarchy, tasks)) :
    Part g (· ∈ g.subtypeNodes d) w w' tasks
      ((hierarchy.map fun h => h.subtypes.map Subtype.typeName).getD []) ∧
    w'.resolver.features = { w.resolver.features with
      inheritance := w.resolver.features.inheritance || hierarchy.isSome } ∧
    w'.Awaits ((d.map fun d => d.mapping.map (·.target)).getD []) tasks := by
  cases d with
  | none =>
    obtain ⟨rfl, rfl, rfl⟩ := by simpa [Walk.hierarchy] using h
    exact ⟨.refl _ _ w, by simp, .nil w⟩
  | some d =>
    let w₀ : Walk := { w with
      resolver := { w.resolver with features := { w.resolver.features with inheritance := true } } }
    have hstart : Part g (· ∈ g.subtypeNodes (some d)) w w₀ [] [] :=
      (Part.refl g _ w).of_resolver_eq rfl rfl rfl rfl
    cases hsubs : w₀.subtypes g d.mapping with
    | mk w₁ more =>
      obtain ⟨hpart, hfeatures, hawaits⟩ := subtypes_part hsubs
      obtain ⟨rfl, rfl, rfl⟩ := by simpa [Walk.hierarchy, w₀, hsubs] using h
      exact ⟨hstart.trans hpart, by rw [hfeatures]; simp [w₀], hawaits⟩

theorem declareRecord_built {id : NodeId} {node : Node} {shape : Schema.Shape} {name : String}
    {tasks : List Task} (hnode : g.node? id = some node) (hkind : node.kind = .object shape)
    (h : w.declareRecord g id node shape name = some (w', tasks)) :
    ∃ w₁ body, w' = w₁.declare ⟨id, name, body⟩ ∧ Built g w w₁ id node ⟨id, name, body⟩ tasks := by
  simp only [declareRecord, Option.bind_eq_bind, Option.bind_eq_some_iff, Prod.exists] at h
  obtain ⟨w₂, ms, memberTasks, hmembers, h⟩ := h
  cases hbase : w.base g name shape.base with
  | mk w₁ more =>
    obtain ⟨base, baseTasks⟩ := more
    cases hhierarchy : w₂.hierarchy g shape.discriminator with
    | mk w₃ more =>
      obtain ⟨hierarchy, subtypeTasks⟩ := more
      simp only [hbase] at hmembers
      obtain ⟨rfl, rfl⟩ := by simpa [hbase, hhierarchy] using h
      obtain ⟨hpart₁, hfeatures₁, hawaits₁⟩ := base_part hbase
      obtain ⟨hpart₂, hfeatures₂, hawaits₂⟩ := members_part hmembers
      obtain ⟨hpart₃, hfeatures₃, hawaits₃⟩ := hierarchy_part hhierarchy
      have hshape : g.relatives node =
          shape.base.toList.map g.dereference ++ g.subtypeNodes shape.discriminator := by
        simp [Graph.relatives, Node.shape?, hkind]
      refine ⟨w₃, _, rfl, ?_, ?_, ?_, fun variants hunion => ?_⟩
      · have hpart₁' : Part g (· ∈ g.relatives node) w w₁ baseTasks base.toList := by
          refine hpart₁.mono fun i hi => ?_
          rw [hshape, List.mem_append, ← Option.toList_map]
          exact .inl (Option.mem_toList.2 hi)
        -- telling members of the same name apart changes no type
        refine .congr_names (fun n => ?_) (hpart₁'.trans ((hpart₂.mono fun _ => False.elim).trans
          (hpart₃.mono fun i hi => by simp [hshape, hi])))
        simp only [Contract.mentions, Contract.relatives, Contract.types,
          Contract.types_distinctMembers, List.mem_append]
        tauto
      · simp only [Features.withContract, Contract.foldl_withMember_distinctMembers]
        rw [hfeatures₃, hfeatures₂, hfeatures₁]
      · have hpointers : g.pointers id = shape.base.toList ++
            (shape.properties.filter fun p => inheritedProperty g id != some p.name).map
              (·.schema) ++
            (shape.discriminator.map fun d => d.mapping.map (·.target)).getD [] := by
          simp only [Graph.pointers, hnode, Option.map_some, hkind]
        rw [hpointers]
        rw [← List.append_assoc]
        exact (hawaits₁.append hawaits₂ hpart₂.fills.faults_eq_nil).append hawaits₃
          hpart₃.fills.faults_eq_nil
      · rw [hkind] at hunion; cases hunion

/-! ### Unions -/

theorem cases_part {typeName : String} {used : List String} {index : Nat} {variants : List NodeId}
    {cs : List Case} {tasks : List Task}
    (h : Walk.cases g typeName w used index variants = some (w', cs, tasks)) :
    Part g (fun _ => False) w w' tasks (TypeRef.namesAll (cs.map Case.type)) ∧
    w'.resolver.features = (cs.map Case.type).foldl Features.withRef w.resolver.features ∧
    cs.length = variants.length ∧ w'.Awaits variants tasks ∧
    ∀ variant ∈ variants, (∃ task ∈ tasks, task.node = variant) ∨ w.Fails g variant := by
  induction variants generalizing w w' used index cs tasks with
  | nil =>
    obtain ⟨rfl, rfl, rfl⟩ := by simpa [Walk.cases] using h
    exact ⟨.refl _ _ w, rfl, rfl, .nil w, by simp⟩
  | cons variant rest ih =>
    simp only [Walk.cases, Option.bind_eq_bind, Option.bind_eq_some_iff, Prod.exists] at h
    obtain ⟨w₁, type, htype, w₂, more, moreTasks, hrest, h⟩ := h
    obtain ⟨rfl, rfl, rfl⟩ := by simpa using h
    obtain ⟨hpart, hfeatures, hnone⟩ := typeRef_part htype
    obtain ⟨hpart', hfeatures', hlength, hawaits, hpushed⟩ := ih hrest
    refine ⟨hpart.trans hpart', ?_, by simp [hlength], ?_, fun v hv => ?_⟩
    · rw [hfeatures', hfeatures, List.map_cons, List.foldl_cons]
    · exact (Awaits.ofOption variant _ fun htype => (hnone htype).1).append hawaits
        hpart'.fills.faults_eq_nil
    · rcases List.mem_cons.1 hv with rfl | hv
      · cases type with
        | some t => exact .inl ⟨_, List.mem_cons_self, rfl⟩
        | none =>
          obtain ⟨-, r', fault, hfail⟩ := hnone rfl
          exact .inr ⟨_, _, r', fault, .refl _ _, hfail⟩
      · rcases hpushed v hv with ⟨task, htask, hnode⟩ | hfails
        · exact .inl ⟨task, List.mem_append_right _ htask, hnode⟩
        · exact .inr (hfails.of_grows hpart.fills.grows)

theorem declareUnion_built {id : NodeId} {node : Node} {variants : List NodeId} {name : String}
    {tasks : List Task} (hnode : g.node? id = some node) (hkind : node.kind = .union variants)
    (h : w.declareUnion g id node variants name = some (w', tasks)) :
    ∃ w₁ body, w' = w₁.declare ⟨id, name, body⟩ ∧ Built g w w₁ id node ⟨id, name, body⟩ tasks := by
  simp only [declareUnion, Option.bind_eq_bind, Option.bind_eq_some_iff, Prod.exists] at h
  obtain ⟨w₁, cs, ts, hcases, h⟩ := h
  obtain ⟨rfl, rfl⟩ := by simpa using h
  obtain ⟨hpart, hfeatures, hlength, hawaits, hpushed⟩ := cases_part hcases
  refine ⟨_, _, rfl, ?_, ?_, ?_, fun vs hunion v hv => ?_⟩
  · exact (hpart.mono fun _ => False.elim).of_resolver_eq rfl rfl rfl rfl
  · simp only [Features.withContract, hfeatures, hlength]
  · simp only [Graph.pointers, hnode, Option.map_some, hkind]
    exact ⟨hawaits.sublist, hawaits.all⟩
  · obtain rfl : variants = vs := by simpa [hkind] using hunion
    exact hpushed v hv

end Walk

end ContractGen
