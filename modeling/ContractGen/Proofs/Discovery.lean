import ContractGen.Proofs.Output

/-!
# The order of contracts

`Graph.Discovers` is depth-first discovery, said by recursion on the graph: a node that is not seen
yet comes first, then what is discovered from the nodes it points at, then the rest. It has one
outcome (`Discovers.unique`), which lists what can be reached, each node once
(`Discovers.mem_iff`, `Discovers.nodup`).

A walk without faults visits nodes in this order, although it keeps one list of tasks for all
depths (`Walk.discovers_of_steps`). `contracts_in_order` says which of the nodes get a contract.
-/

namespace ContractGen

open Schema (Graph Node NodeId Kind)

namespace Schema.Graph

variable {g : Graph}

/-! ### Depth-first discovery -/

/-- Depth-first discovery from the nodes `pending`, without the nodes `seen`, finds `order`. -/
inductive Discovers (g : Graph) : List NodeId → List NodeId → List NodeId → Prop where
  /-- Nothing is left. -/
  | done {seen : List NodeId} : Discovers g seen [] []
  /-- A node that is seen already is left out. -/
  | again {seen rest order : List NodeId} {i : NodeId} : i ∈ seen → Discovers g seen rest order →
      Discovers g seen (i :: rest) order
  /-- A new node comes before what it leads to, and that before the rest. -/
  | first {seen rest below order : List NodeId} {i : NodeId} : i ∉ seen →
      Discovers g (i :: seen) (g.edges i) below →
      Discovers g (below.reverse ++ i :: seen) rest order →
      Discovers g seen (i :: rest) (i :: below ++ order)

namespace Discovers

variable {seen pending order : List NodeId}

/-- There is one order of discovery. -/
theorem unique {order' : List NodeId} (h : Discovers g seen pending order)
    (h' : Discovers g seen pending order') : order = order' := by
  induction h generalizing order' with
  | done => cases h'; rfl
  | again hi _ ih =>
    cases h' with
    | again _ h' => exact ih h'
    | first hi' _ _ => exact absurd hi hi'
  | first hi _ _ ihbelow ihrest =>
    cases h' with
    | again hi' _ => exact absurd hi' hi
    | first _ hbelow' hrest' =>
      obtain rfl := ihbelow hbelow'
      rw [ihrest hrest']

/-- Discovery from a row of nodes is discovery from its first part, then from the other. -/
theorem split {first rest : List NodeId} (h : Discovers g seen (first ++ rest) order) :
    ∃ order₁ order₂, order = order₁ ++ order₂ ∧ Discovers g seen first order₁ ∧
      Discovers g (order₁.reverse ++ seen) rest order₂ := by
  generalize hpending : first ++ rest = pending at h
  induction h generalizing first with
  | done =>
    obtain ⟨rfl, rfl⟩ := List.append_eq_nil_iff.1 hpending
    exact ⟨[], [], rfl, .done, .done⟩
  | @again seen rest' order i hi hrest ih =>
    cases first with
    | nil =>
      obtain rfl : rest = i :: rest' := hpending
      exact ⟨[], order, rfl, .done, .again hi hrest⟩
    | cons j first =>
      obtain ⟨rfl, htail⟩ := List.cons.inj hpending
      obtain ⟨order₁, order₂, heq, hfirst, hrest⟩ := ih htail
      exact ⟨order₁, order₂, heq, .again hi hfirst, hrest⟩
  | @first seen rest' below order i hi hbelow hrest _ ihrest =>
    cases first with
    | nil =>
      obtain rfl : rest = i :: rest' := hpending
      exact ⟨[], i :: below ++ order, rfl, .done, .first hi hbelow hrest⟩
    | cons j first =>
      obtain ⟨rfl, htail⟩ := List.cons.inj hpending
      obtain ⟨order₁, order₂, rfl, hfirst, hrest⟩ := ihrest htail
      refine ⟨j :: below ++ order₁, order₂, by simp, .first hi hbelow hfirst, ?_⟩
      simpa using hrest

theorem not_seen (h : Discovers g seen pending order) : ∀ i ∈ order, i ∉ seen := by
  induction h with
  | done => simp
  | again _ _ ih => exact ih
  | first hi _ _ ihbelow ihrest =>
    intro j hj
    rcases List.mem_append.1 hj with hj | hj
    · rcases List.mem_cons.1 hj with rfl | hj
      · exact hi
      · exact fun hseen => ihbelow j hj (List.mem_cons_of_mem _ hseen)
    · exact fun hseen => ihrest j hj (by simp [hseen])

/-- **Nothing is discovered twice.** -/
theorem nodup (h : Discovers g seen pending order) : order.Nodup := by
  induction h with
  | done => exact .nil
  | again _ _ ih => exact ih
  | first hi hbelow hrest ihbelow ihrest =>
    refine List.nodup_append.2 ⟨List.nodup_cons.2 ⟨fun hmem => ?_, ihbelow⟩, ihrest, ?_⟩
    · exact hbelow.not_seen _ hmem List.mem_cons_self
    · rintro a ha _ hb rfl
      refine hrest.not_seen a hb ?_
      rcases List.mem_cons.1 ha with rfl | ha
      · simp
      · simp [ha]

theorem reachable (h : Discovers g seen pending order) :
    ∀ i ∈ order, ∃ j ∈ pending, Relation.ReflTransGen (fun a b => b ∈ g.edges a) j i := by
  induction h with
  | done => simp
  | again _ _ ih =>
    intro i hi
    obtain ⟨j, hj, hreach⟩ := ih i hi
    exact ⟨j, List.mem_cons_of_mem _ hj, hreach⟩
  | first _ _ _ ihbelow ihrest =>
    intro i hi
    rcases List.mem_append.1 hi with hi | hi
    · rcases List.mem_cons.1 hi with rfl | hi
      · exact ⟨i, List.mem_cons_self, .refl⟩
      · obtain ⟨j, hj, hreach⟩ := ihbelow i hi
        exact ⟨_, List.mem_cons_self, .head hj hreach⟩
    · obtain ⟨j, hj, hreach⟩ := ihrest i hi
      exact ⟨j, List.mem_cons_of_mem _ hj, hreach⟩

/-- Discovery misses neither a node it starts from nor one that a discovered node points at. -/
theorem closed (h : Discovers g seen pending order) :
    (∀ i ∈ pending, i ∈ order ∨ i ∈ seen) ∧
      ∀ i ∈ order, ∀ j ∈ g.edges i, j ∈ order ∨ j ∈ seen := by
  induction h with
  | done => simp
  | again hi _ ih => exact ⟨by simpa [hi] using ih.1, ih.2⟩
  | @first seen rest below order i _ _ _ ihbelow ihrest =>
    have hwiden : ∀ j, j ∈ below ∨ j ∈ i :: seen → j ∈ i :: below ++ order ∨ j ∈ seen := by
      intro j hj
      simp only [List.mem_cons, List.mem_append] at hj ⊢
      tauto
    have hwiden' : ∀ j, j ∈ order ∨ j ∈ below.reverse ++ i :: seen →
        j ∈ i :: below ++ order ∨ j ∈ seen := by
      intro j hj
      simp only [List.mem_cons, List.mem_append, List.mem_reverse] at hj ⊢
      tauto
    constructor
    · intro j hj
      rcases List.mem_cons.1 hj with rfl | hj
      · simp
      · exact hwiden' j (ihrest.1 j hj)
    · intro a ha b hb
      rcases List.mem_append.1 ha with ha | ha
      · rcases List.mem_cons.1 ha with rfl | ha
        · exact hwiden b (ihbelow.1 b hb)
        · exact hwiden b (ihbelow.2 a ha b hb)
      · exact hwiden' b (ihrest.2 a ha b hb)

end Discovers

/-- A node can be reached from the root. -/
def Reachable (g : Graph) (i : NodeId) : Prop :=
  Relation.ReflTransGen (fun a b => b ∈ g.edges a) (g.dereference g.root) i

/-- **Discovery from the root finds what can be reached.** -/
theorem Discovers.mem_iff {order : List NodeId} (h : g.Discovers [] [g.dereference g.root] order)
    (i : NodeId) : i ∈ order ↔ g.Reachable i := by
  constructor
  · intro hi
    obtain ⟨j, hj, hreach⟩ := h.reachable i hi
    obtain rfl := List.mem_singleton.1 hj
    exact hreach
  · intro hi
    induction hi with
    | refl => simpa using h.closed.1 _ (List.mem_singleton_self _)
    | tail _ hedge ih => simpa using h.closed.2 _ ih _ hedge

end Schema.Graph

/-- Nodes of which kinds get a contract; unions do if `named` holds. -/
def Schema.Node.GetsContract (node : Node) (named : Prop) : Prop :=
  match node.kind with
  | .object _ => True
  | .enumeration _ => True
  | .union _ => named
  | .primitive _ _ => False
  | .array _ => False
  | .reference _ => False

namespace Schema.Node.GetsContract

variable {node : Node} {named named' : Prop}

theorem imp (h : named → named') (hgets : node.GetsContract named) :
    node.GetsContract named' := by
  cases hkind : node.kind <;> simp_all [GetsContract]

theorem always_or (h : node.GetsContract named) : (∀ P, node.GetsContract P) ∨ named := by
  cases hkind : node.kind <;> simp_all [GetsContract]

end Schema.Node.GetsContract

namespace Walk

variable {g : Graph} {rootName : Option String} {w w' : Walk} {task : Task} {tasks rest : List Task}

/-! ### Walks without faults -/

theorem Visits.first (h : Visits g w task w' tasks) (hnew : g.dereference task.node ∉ w.visited)
    (hfaults : w'.faults = []) :
    w'.visited = g.dereference task.node :: w.visited ∧
    tasks.map (fun t => g.dereference t.node) = g.edges (g.dereference task.node) := by
  cases h with
  | again hseen => exact absurd hseen hnew
  | pass _ _ hpointers _ => exact ⟨rfl, map_dereference_eq_edges hpointers⟩
  | fail _ _ _ => exact absurd hfaults (faults_report_ne_nil _ _)
  | declare _ _ _ _ hbuilt =>
    rw [faults_declare] at hfaults
    exact ⟨hbuilt.part.fills.visited, map_dereference_eq_edges (hbuilt.awaits.all hfaults)⟩

/-- **A walk without faults goes by depth-first discovery** and declares contracts in that order. -/
theorem discovers_of_steps {s : Walk × List Task}
    (h : Relation.ReflTransGen (Step g) s (w', [])) (hfaults : w'.faults = []) :
    ∃ order new, g.Discovers s.1.visited (s.2.map fun t => g.dereference t.node) order ∧
      w'.visited = order.reverse ++ s.1.visited ∧ w'.contracts = s.1.contracts ++ new ∧
      (new.map Contract.node).Sublist order := by
  induction h using Relation.ReflTransGen.head_induction_on with
  | refl => exact ⟨[], [], .done, by simp, by simp, by simp⟩
  | head hstep hsteps ih =>
    obtain ⟨order, new, hdiscovers, hvisited, hcontracts, hsub⟩ := ih
    cases hstep with
    | @visit w w₁ task more rest hvisit =>
      have hvisits := visit_visits hvisit
      have hfaults₁ : w₁.faults = [] := faults_eq_nil_of_steps hsteps hfaults
      by_cases hseen : g.dereference task.node ∈ w.visited
      · obtain ⟨rfl, rfl⟩ := by simpa [visit, hseen] using hvisit
        exact ⟨order, new, .again hseen hdiscovers, hvisited, hcontracts, hsub⟩
      · obtain ⟨hmark, hedges⟩ := hvisits.first hseen hfaults₁
        -- what the visit adds comes before the rest, and discovery is split there
        simp only [List.map_append, hedges, hmark] at hdiscovers
        obtain ⟨below, order, rfl, hbelow, hrest⟩ := hdiscovers.split
        have hvisited' : w'.visited =
            (g.dereference task.node :: below ++ order).reverse ++ w.visited := by
          rw [hvisited, hmark]; simp
        obtain ⟨-, c, hnew, hnode⟩ | ⟨-, hnew⟩ := hvisits.contracts_of_new hseen
        · refine ⟨_, c :: new, .first hseen hbelow hrest, hvisited', by simp [hcontracts, hnew], ?_⟩
          rw [List.map_cons, hnode]
          exact hsub.cons_cons _
        · refine ⟨_, new, .first hseen hbelow hrest, hvisited', ?_, hsub.cons _⟩
          rw [hcontracts, hnew]

/-! ### First visits -/

theorem getsContract_of_declares {id : NodeId} {node : Node} {isRoot : Bool}
    (h : w.declares id node isRoot = true) : node.GetsContract (w.isNamedUnion id node isRoot) := by
  cases hkind : node.kind <;> simp_all [declares, Node.GetsContract]

theorem declares_of_getsContract {id : NodeId} {node : Node} {isRoot : Bool}
    (hempty : node.kind ≠ .union []) (h : node.GetsContract (w.isNamedUnion id node isRoot)) :
    w.declares id node isRoot = true := by
  cases hkind : node.kind <;> simp_all [declares, Node.GetsContract]

/-- Without faults, a node gets a contract by its kind, a union if it has a name when it is visited
for the first time. -/
theorem FirstVisit.declares_iff (h : FirstVisit g rootName w task rest)
    (hend : Reached g rootName w' []) (hfaults : w'.faults = []) :
    w.Declares g task ↔ ∃ node, g.node? (g.dereference task.node) = some node ∧
      node.GetsContract (w.isNamedUnion (g.dereference task.node) node task.isRoot) := by
  constructor
  · rintro ⟨node, _, _, hnode, hdeclares, -⟩
    exact ⟨node, hnode, getsContract_of_declares hdeclares⟩
  · rintro ⟨node, hnode, hgets⟩
    obtain ⟨w₁, more, hvisits, hsteps⟩ := h.exists_visits hend
    have hfaults₁ : w₁.faults = [] := faults_eq_nil_of_steps hsteps hfaults
    cases hvisits with
    | again hseen => exact absurd hseen h.new
    | pass _ hno _ _ =>
      obtain ⟨hempty, hdeclares⟩ := hno node hnode
      rw [declares_of_getsContract hempty hgets] at hdeclares
      cases hdeclares
    | fail _ _ _ => exact absurd hfaults₁ (faults_report_ne_nil _ _)
    | declare _ hnode hdeclares hok _ => exact ⟨_, _, _, hnode, hdeclares, hok⟩

/-- A node has a name already when it is visited for the first time. -/
def NamedBefore (g : Graph) (rootName : Option String) (i : NodeId) : Prop :=
  ∃ w task rest, FirstVisit g rootName w task rest ∧ g.dereference task.node = i ∧
    (w.resolver.nameOf i).isSome = true

/-- A walk without faults visits what can be reached. -/
theorem Reached.mem_visited_iff (h : Reached g rootName w []) (hfaults : w.faults = [])
    (i : NodeId) : i ∈ w.visited ↔ g.Reachable i := by
  obtain ⟨order, -, hdiscovers, hvisited, -, -⟩ := discovers_of_steps h hfaults
  simpa [hvisited] using hdiscovers.mem_iff i

/-- **Which nodes get a contract** on a walk without faults. -/
theorem Reached.mem_contracts_iff (h : Reached g rootName w []) (hfaults : w.faults = [])
    (i : NodeId) : i ∈ w.contracts.map Contract.node ↔ g.Reachable i ∧
      ∃ node, g.node? i = some node ∧ node.GetsContract (node.declaredName.isSome = true ∨
        i = g.dereference g.root ∨ NamedBefore g rootName i) := by
  constructor
  · intro hi
    obtain ⟨c, hc, hnode⟩ := List.mem_map.1 hi
    have hvisited : i ∈ w.visited := hnode ▸ h.visited_of_mem c hc
    obtain ⟨w₁, task, rest, hfirst, rfl⟩ := h.exists_firstVisit i hvisited
    obtain ⟨node, hnode, hgets⟩ :=
      (hfirst.declares_iff h hfaults).1 ((hfirst.mem_contracts_iff h).1 hi)
    refine ⟨(h.mem_visited_iff hfaults _).1 hvisited, node, hnode, hgets.imp fun hnamed => ?_⟩
    simp only [isNamedUnion, Bool.or_eq_true, hfirst.isRoot_iff] at hnamed
    rcases hnamed with (hroot | hdeclared) | hname
    · exact .inr (.inl hroot)
    · exact .inl hdeclared
    · exact .inr (.inr ⟨w₁, task, rest, hfirst, rfl, hname⟩)
  · rintro ⟨hreach, node, hnode, hgets⟩
    -- a union that has a name before its first visit is looked at in a state in which it has one
    obtain ⟨w₁, task, rest, hfirst, rfl, hgets⟩ : ∃ w₁ task rest,
        FirstVisit g rootName w₁ task rest ∧ g.dereference task.node = i ∧
        node.GetsContract (w₁.isNamedUnion i node task.isRoot) := by
      obtain ⟨w₁, task, rest, hfirst, rfl⟩ :=
        h.exists_firstVisit i ((h.mem_visited_iff hfaults i).2 hreach)
      rcases hgets.always_or with halways | hdeclared | hroot | ⟨w₂, task₂, rest₂, h₂, heq, hname⟩
      · exact ⟨w₁, task, rest, hfirst, rfl, halways _⟩
      · exact ⟨w₁, task, rest, hfirst, rfl, hgets.imp fun _ => by simp [isNamedUnion, hdeclared]⟩
      · refine ⟨w₁, task, rest, hfirst, rfl, hgets.imp fun _ => ?_⟩
        simp [isNamedUnion, hfirst.isRoot_iff.2 hroot]
      · exact ⟨w₂, task₂, rest₂, h₂, heq, hgets.imp fun _ => by simp [isNamedUnion, hname]⟩
    exact (hfirst.mem_contracts_iff h).2 ((hfirst.declares_iff h hfaults).2 ⟨node, hnode, hgets⟩)

end Walk

open Walk in
/-- **A walk without faults declares what can be reached, in depth-first order.** Objects,
enumerations and unions with a name get a contract each, and so does a union that is the root or has
a name already when it is visited for the first time; nothing else does. Each artifact has the name
of its node. -/
theorem contracts_in_order {ε : Type} (render : Renderer ε) (s : Settings) (g : Graph) (p : Plan)
    (artifacts : List Artifact) (hp : Plan.ofGraph g s.rootTypeName = some p)
    (hartifacts : (p.contractDrafts s).mapM (Draft.render render) = .ok artifacts)
    (hfaults : p.faults = []) :
    ∃ (w : Walk) (order nodes : List NodeId), Reached g s.rootTypeName w [] ∧
      g.Discovers [] [g.dereference g.root] order ∧ nodes.Sublist order ∧ order.Nodup ∧
      (∀ i, i ∈ order ↔ g.Reachable i) ∧
      (∀ i, i ∈ nodes ↔ g.Reachable i ∧ ∃ node, g.node? i = some node ∧
        node.GetsContract (node.declaredName.isSome = true ∨ i = g.dereference g.root ∨
          NamedBefore g s.rootTypeName i)) ∧
      nodes.map w.resolver.nameOf = artifacts.map fun a => some a.typeName := by
  obtain ⟨w, hw, hcontracts, hpfaults, -⟩ := Plan.reached_of_ofGraph hp
  rw [hpfaults] at hfaults
  obtain ⟨order, new, hdiscovers, -, hnew, hsub⟩ := discovers_of_steps hw hfaults
  obtain rfl : w.contracts = new := by simpa [Walk.contracts] using hnew
  have htypeNames : artifacts.map Artifact.typeName = w.contracts.map Contract.name := by
    rw [Draft.map_typeName_of_mapM_render hartifacts, Plan.map_typeName_contractDrafts, hcontracts]
  refine ⟨w, order, w.contracts.map Contract.node, hw, hdiscovers, hsub, hdiscovers.nodup,
    hdiscovers.mem_iff, hw.mem_contracts_iff hfaults, ?_⟩
  calc (w.contracts.map Contract.node).map w.resolver.nameOf
      = w.contracts.map fun c => some c.name := by
        rw [List.map_map]
        exact List.map_congr_left hw.nameOf_of_mem
    _ = (artifacts.map Artifact.typeName).map some := by rw [htypeNames, List.map_map]; rfl
    _ = artifacts.map fun a => some a.typeName := by rw [List.map_map]; rfl

/-- A tree of coloured forks: a fork points back at the tree through a reference, and the union of
fork and colour gets its name as a subtype, before it is visited. The last object is not in use. -/
def forks : Graph where
  root := 0
  nodes := #[
    { Node.ofKind (.object {
        properties := [⟨"parts", 1, true, false, false, none, []⟩]
        base := none
        isAbstract := true
        discriminator := some ⟨"type", [⟨"part", 3⟩]⟩ }) with nameHint := some "Tree" },
    Node.ofKind (.array 2), { Node.ofKind (.enumeration []) with nameHint := some "Colour" },
    Node.ofKind (.union [4, 2]),
    { Node.ofKind (.object ⟨[⟨"up", 5, true, false, false, none, []⟩], none, false, none⟩) with
      nameHint := some "Fork" },
    Node.ofKind (.reference 0),
    { Node.ofKind (.object ⟨[], none, false, none⟩) with nameHint := some "Unused" }]

/-- Four nodes of the tree of forks get a contract, the union among them. -/
theorem contracts_in_order_forks :
    ∃ (p : Plan) (artifacts : List Artifact) (w : Walk) (nodes : List NodeId),
      Plan.ofGraph forks none = some p ∧ p.faults = [] ∧
      (p.contractDrafts {}).mapM (Draft.render blankRenderer) = .ok artifacts ∧
      Walk.Reached forks none w [] ∧
      nodes.map w.resolver.nameOf = [some "Tree", some "Colour", some "Part", some "Fork"] ∧
      nodes.Nodup ∧ ∀ i ∈ nodes, forks.Reachable i := by
  have hplan : (Plan.ofGraph forks none).map (fun p => (p.faults,
      ((p.contractDrafts {}).mapM (Draft.render blankRenderer)).toOption.map
        (List.map Artifact.typeName))) = some ([], some ["Tree", "Colour", "Part", "Fork"]) := by
    decide +kernel
  obtain ⟨p, hp, hplan⟩ := Option.map_eq_some_iff.1 hplan
  obtain ⟨hfaults, hartifacts⟩ := Prod.mk.inj hplan
  cases hrender : (p.contractDrafts {}).mapM (Draft.render blankRenderer) with
  | error e => cases e
  | ok artifacts =>
    rw [hrender] at hartifacts
    have htypeNames : artifacts.map Artifact.typeName = ["Tree", "Colour", "Part", "Fork"] := by
      simpa [Except.toOption] using hartifacts
    obtain ⟨w, order, nodes, hw, -, hsub, hnodup, -, hmem, hnames⟩ :=
      contracts_in_order blankRenderer {} forks p artifacts hp hrender hfaults
    refine ⟨p, artifacts, w, nodes, hp, hfaults, hrender, hw, ?_, hsub.nodup hnodup,
      fun i hi => ((hmem i).1 hi).1⟩
    have hsome : artifacts.map (fun a => some a.typeName) =
        (artifacts.map Artifact.typeName).map some := by rw [List.map_map]; rfl
    rw [hnames, hsome, htypeNames]
    rfl

end ContractGen
