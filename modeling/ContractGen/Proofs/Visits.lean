import ContractGen.Proofs.Building
import Mathlib.Logic.Relation

/-!
# Visits and walks

`Walk.Visits` says all that a visit can do; `visit_visits` proves it of `Walk.visit` once, and what
a walk keeps is derived from it. The states of a walk are those that visits lead to from the start
(`Walk.Reached`), and `Reached.induct_walk` is the induction along a walk. A plan is read off the
state in which nothing is left to visit (`reached_of_ofGraph`).
-/

namespace ContractGen

open Schema (Graph Node NodeId Kind)
open Contract (Enumeration)

namespace Walk

variable {g : Graph} {w w' : Walk} {task : Task} {tasks : List Task}

/-! ### One visit -/

/-- Whether a node gets a contract when it is visited. -/
def declares (w : Walk) (id : NodeId) (node : Node) (isRoot : Bool) : Bool :=
  match node.kind with
  | .object _ => true
  | .enumeration _ => true
  | .union variants => !variants.isEmpty && w.isNamedUnion id node isRoot
  | _ => false

/-- A first visit for a task declares a contract: the node should get one, and gets a name. -/
def Declares (g : Graph) (w : Walk) (task : Task) : Prop :=
  ∃ node name r, g.node? (g.dereference task.node) = some node ∧
    w.declares (g.dereference task.node) node task.isRoot = true ∧
    w.resolver.resolve g (g.dereference task.node) task.hint = .ok (name, r)

/-- The walk with one more visited node. -/
def mark (w : Walk) (id : NodeId) : Walk := { w with visited := id :: w.visited }

/-- What a visit for a task does. -/
inductive Visits (g : Graph) (w : Walk) (task : Task) : Walk → List Task → Prop where
  /-- The node was visited before. -/
  | again : g.dereference task.node ∈ w.visited → Visits g w task w []
  /-- The node is passed through: all it points at is to be visited. -/
  | pass {tasks : List Task} : g.dereference task.node ∉ w.visited →
      (∀ node, g.node? (g.dereference task.node) = some node → node.kind ≠ .union [] ∧
        w.declares (g.dereference task.node) node task.isRoot = false) →
      tasks.map Task.node = g.pointers (g.dereference task.node) →
      (∀ t ∈ tasks, t.isRoot = false) →
      Visits g w task (w.mark (g.dereference task.node)) tasks
  /-- The node is a union of nothing, or should get a contract but gets no name. -/
  | fail {node : Node} {fault : Fault} : g.dereference task.node ∉ w.visited →
      g.node? (g.dereference task.node) = some node →
      node.kind = .union [] ∨ w.declares (g.dereference task.node) node task.isRoot = true ∧
        w.resolver.resolve g (g.dereference task.node) task.hint = .error fault →
      Visits g w task ((w.mark (g.dereference task.node)).report fault) []
  /-- The node gets a name and a contract. -/
  | declare {node : Node} {name : String} {r : Resolver} {w₁ : Walk} {body : Contract.Body}
      {tasks : List Task} : g.dereference task.node ∉ w.visited →
      g.node? (g.dereference task.node) = some node →
      w.declares (g.dereference task.node) node task.isRoot = true →
      w.resolver.resolve g (g.dereference task.node) task.hint = .ok (name, r) →
      Built g { w.mark (g.dereference task.node) with resolver := r } w₁
        (g.dereference task.node) node ⟨g.dereference task.node, name, body⟩ tasks →
      Visits g w task (w₁.declare ⟨g.dereference task.node, name, body⟩) tasks

theorem declareNamed_visits {node : Node} {body : Walk → String → Option (Walk × List Task)}
    (hnew : g.dereference task.node ∉ w.visited)
    (hnode : g.node? (g.dereference task.node) = some node)
    (hdeclares : w.declares (g.dereference task.node) node task.isRoot = true)
    (hbody : ∀ w₁ name w' tasks, body w₁ name = some (w', tasks) → ∃ w₂ b,
      w' = w₂.declare ⟨g.dereference task.node, name, b⟩ ∧
      Built g w₁ w₂ (g.dereference task.node) node ⟨g.dereference task.node, name, b⟩ tasks)
    (h : (w.mark (g.dereference task.node)).declareNamed g (g.dereference task.node) task.hint
      body = some (w', tasks)) : Visits g w task w' tasks := by
  unfold declareNamed at h
  split at h
  · rename_i w₁ name hname
    obtain ⟨_, r, hok, ⟨⟩, rfl⟩ | ⟨_, _, ⟨⟩, _⟩ := name?_cases hname
    obtain ⟨w₂, b, rfl, hbuilt⟩ := hbody _ _ _ _ h
    exact .declare hnew hnode hdeclares hok hbuilt
  · rename_i w₁ hname
    obtain ⟨_, _, _, ⟨⟩, _⟩ | ⟨fault, herr, -, rfl⟩ := name?_cases hname
    obtain ⟨rfl, rfl⟩ := by simpa using h
    exact .fail hnew hnode (.inr ⟨hdeclares, herr⟩)

theorem enumeration_built {id : NodeId} {node : Node} {name : String} {e : Enumeration}
    {values : List Json.Value} (hnode : g.node? id = some node)
    (hkind : node.kind = .enumeration values) :
    Built g w w id node ⟨id, name, .enumeration e⟩ [] where
  part := .refl g _ w
  features := rfl
  awaits := by
    simp only [Graph.pointers, hnode, Option.map_some, hkind]
    exact .nil w
  pushed variants hunion := by rw [hkind] at hunion; cases hunion

theorem visit_of_new {node : Node} (hnew : g.dereference task.node ∉ w.visited)
    (hnode : g.node? (g.dereference task.node) = some node) :
    w.visit g task =
      (w.mark (g.dereference task.node)).enter g (g.dereference task.node) node task.hint
        task.isRoot := by
  simp [visit, hnew, hnode, mark]

/-- **What entering a node does.** -/
theorem enter_visits {node : Node} (hnew : g.dereference task.node ∉ w.visited)
    (hnode : g.node? (g.dereference task.node) = some node)
    (h : (w.mark (g.dereference task.node)).enter g (g.dereference task.node) node task.hint
      task.isRoot = some (w', tasks)) : Visits g w task w' tasks := by
  cases hkind : node.kind with
  | enumeration values =>
    refine declareNamed_visits hnew hnode (by simp [declares, hkind]) ?_
      (by simpa only [enter, hkind] using h)
    intro w₁ name w' tasks hbody
    obtain ⟨rfl, rfl⟩ := by simpa using hbody
    exact ⟨w₁, _, rfl, enumeration_built hnode hkind⟩
  | object shape =>
    refine declareNamed_visits hnew hnode (by simp [declares, hkind]) ?_
      (by simpa only [enter, hkind] using h)
    exact fun w₁ name w' tasks hbody => declareRecord_built hnode hkind hbody
  | array items =>
    obtain ⟨rfl, rfl⟩ := by simpa [enter, hkind] using h
    exact .pass hnew (by simp [hnode, declares, hkind]) (by simp [Graph.pointers, hnode, hkind])
      (by simp)
  | primitive type format =>
    obtain ⟨rfl, rfl⟩ := by simpa [enter, hkind] using h
    exact .pass hnew (by simp [hnode, declares, hkind]) (by simp [Graph.pointers, hnode, hkind])
      (by simp)
  | reference target =>
    obtain ⟨rfl, rfl⟩ := by simpa [enter, hkind] using h
    exact .pass hnew (by simp [hnode, declares, hkind]) (by simp [Graph.pointers, hnode, hkind])
      (by simp)
  | union variants =>
    have hmark : (w.mark (g.dereference task.node)).isNamedUnion (g.dereference task.node) node
        task.isRoot = w.isNamedUnion (g.dereference task.node) node task.isRoot := rfl
    simp only [enter, hkind, hmark] at h
    split_ifs at h with hempty hnamed
    · obtain ⟨rfl, rfl⟩ := by simpa using h
      exact .fail hnew hnode (.inl (by rw [hkind, List.isEmpty_iff.1 hempty]))
    · refine declareNamed_visits hnew hnode (by simp [declares, hkind, hempty, hnamed]) ?_ h
      exact fun w₁ name w' tasks hbody => declareUnion_built hnode hkind hbody
    · obtain ⟨rfl, rfl⟩ := by simpa using h
      refine .pass hnew ?_ ?_ ?_
      · simpa [hnode, declares, hkind, hnamed] using hempty
      · simp only [Graph.pointers, hnode, Option.map_some, hkind]
        exact List.ext_getElem? fun i => by simp [Function.comp_def]
      · intro t ht
        obtain ⟨i, hi, rfl⟩ := List.mem_mapIdx.1 ht
        rfl

/-- **What a visit does.** -/
theorem visit_visits (h : w.visit g task = some (w', tasks)) : Visits g w task w' tasks := by
  by_cases hseen : g.dereference task.node ∈ w.visited
  · obtain ⟨rfl, rfl⟩ := by simpa [visit, hseen] using h
    exact .again hseen
  · cases hnode : g.node? (g.dereference task.node) with
    | none =>
      obtain ⟨rfl, rfl⟩ := by simpa [visit, hseen, hnode] using h
      exact .pass hseen (by simp [hnode]) (by simp [Graph.pointers, hnode]) (by simp)
    | some node => exact enter_visits hseen hnode (visit_of_new hseen hnode ▸ h)

theorem dereference_of_declares {id : NodeId} {node : Node} {isRoot : Bool}
    (hnode : g.node? id = some node) (h : w.declares id node isRoot = true) :
    g.dereference id = id :=
  Graph.dereference_of_target?_eq_none <|
    Graph.target?_eq_none_of_kind hnode fun target hkind => by simp [declares, hkind] at h

namespace Visits

/-- A visit gives names for candidates of their nodes. -/
theorem grows (h : Visits g w task w' tasks) :
    Resolver.Grows (fun i c => ∃ hint, Resolver.candidate? g i hint = some c) w.resolver
      w'.resolver := by
  cases h with
  | again _ => exact .refl _ _
  | pass _ _ _ _ => exact .refl _ _
  | fail _ _ _ => rw [resolver_report]; exact .refl _ _
  | declare _ _ _ hok hbuilt =>
    refine .trans ((Resolver.resolve_grows hok).2.mono ?_) (hbuilt.part.fills.grows.mono ?_)
    · rintro i c ⟨-, hc⟩
      exact ⟨_, hc⟩
    · rintro i c ⟨t, -, ⟨hint, -, hc⟩, -⟩
      exact ⟨hint, hc⟩

theorem faults (h : Visits g w task w' tasks) : w.faults <+: w'.faults := by
  cases h with
  | again _ => exact List.prefix_rfl
  | pass _ _ _ _ => exact List.prefix_rfl
  | fail _ _ _ => exact (report_fills (fun _ _ => True) (w.mark _) _).faults
  | declare _ _ _ _ hbuilt => rw [faults_declare]; exact hbuilt.part.fills.faults

theorem mem_visited (h : Visits g w task w' tasks) (i : NodeId) :
    i ∈ w'.visited ↔ i = g.dereference task.node ∨ i ∈ w.visited := by
  cases h with
  | again hseen => exact ⟨.inr, fun h => h.elim (fun heq => heq ▸ hseen) id⟩
  | pass _ _ _ _ => exact List.mem_cons
  | fail _ _ _ => rw [visited_report]; exact List.mem_cons
  | declare _ _ _ _ hbuilt =>
    rw [Walk.declare, hbuilt.part.fills.visited]
    exact List.mem_cons

/-- What is to be visited next is among what the node mentions. -/
theorem sublist (h : Visits g w task w' tasks) :
    (tasks.map Task.node).Sublist (g.pointers (g.dereference task.node)) := by
  cases h with
  | again _ => exact List.nil_sublist _
  | pass _ _ hpointers _ => rw [hpointers]
  | fail _ _ _ => exact List.nil_sublist _
  | declare _ _ _ _ hbuilt => exact hbuilt.awaits.sublist

theorem nested (h : Visits g w task w' tasks) : ∀ t ∈ tasks, t.isRoot = false := by
  cases h with
  | again _ => simp
  | pass _ _ _ hnested => exact hnested
  | fail _ _ _ => simp
  | declare _ _ _ _ hbuilt => exact hbuilt.part.nested

/-- The node of a first visit gets a contract just if it should and gets a name. -/
theorem contracts_of_new (h : Visits g w task w' tasks)
    (hnew : g.dereference task.node ∉ w.visited) :
    (w.Declares g task ∧
        ∃ c, w'.contracts = w.contracts ++ [c] ∧ c.node = g.dereference task.node) ∨
      ¬ w.Declares g task ∧ w'.contracts = w.contracts := by
  cases h with
  | again hseen => exact absurd hseen hnew
  | pass _ hno _ _ =>
    refine .inr ⟨?_, rfl⟩
    rintro ⟨node, _, _, hnode, hdeclares, -⟩
    rw [(hno node hnode).2] at hdeclares
    cases hdeclares
  | fail _ hnode hfail =>
    refine .inr ⟨?_, contracts_report _ _⟩
    rintro ⟨node, _, _, hnode', hdeclares, hok⟩
    obtain rfl := Option.some.inj (hnode.symm.trans hnode')
    rcases hfail with hempty | ⟨-, herr⟩
    · simp [declares, hempty] at hdeclares
    · rw [herr] at hok; cases hok
  | @declare _ name _ _ body _ _ hnode hdeclares hok hbuilt =>
    refine .inl ⟨⟨_, _, _, hnode, hdeclares, hok⟩, ⟨g.dereference task.node, name, body⟩, ?_, rfl⟩
    rw [contracts_declare, hbuilt.part.fills.contracts]
    rfl

/-- A contract was declared before, or is that of the node, under its name. -/
theorem old_or_named (h : Visits g w task w' tasks) {c : Contract} (hc : c ∈ w'.contracts) :
    c ∈ w.contracts ∨
      c.node = g.dereference task.node ∧ w'.resolver.nameOf c.node = some c.name := by
  cases h with
  | again _ => exact .inl hc
  | pass _ _ _ _ => exact .inl hc
  | fail _ _ _ => rw [contracts_report] at hc; exact .inl hc
  | declare _ hnode hdeclares hok hbuilt =>
    rw [contracts_declare, hbuilt.part.fills.contracts, List.mem_append, List.mem_singleton] at hc
    rcases hc with hc | rfl
    · exact .inl hc
    · have hname := (Resolver.resolve_grows hok).1
      rw [dereference_of_declares hnode hdeclares] at hname
      exact .inr ⟨rfl, hbuilt.part.fills.grows.nameOf hname⟩

theorem mem_contracts (h : Visits g w task w' tasks) {i : NodeId} (hi : i ∈ w.visited) :
    i ∈ w'.contracts.map Contract.node ↔ i ∈ w.contracts.map Contract.node := by
  by_cases hnew : g.dereference task.node ∈ w.visited
  · cases h with
    | again _ => rfl
    | pass hnew' _ _ _ => exact absurd hnew hnew'
    | fail hnew' _ _ => exact absurd hnew hnew'
    | declare hnew' _ _ _ _ => exact absurd hnew hnew'
  · obtain ⟨-, c, hcontracts, hnode⟩ | ⟨-, hcontracts⟩ := h.contracts_of_new hnew
    · have hne : i ≠ g.dereference task.node := fun heq => hnew (heq ▸ hi)
      simp [hcontracts, hnode, hne]
    · rw [hcontracts]

end Visits

/-! ### Walks -/

/-- One visit: what it adds goes before what is left. -/
inductive Step (g : Graph) : Walk × List Task → Walk × List Task → Prop where
  /-- The first task is done. -/
  | visit {w w' : Walk} {task : Task} {more rest : List Task} :
      w.visit g task = some (w', more) → Step g (w, task :: rest) (w', more ++ rest)

/-- The walk from the root comes to a state with tasks left. -/
def Reached (g : Graph) (rootName : Option String) (w : Walk) (tasks : List Task) : Prop :=
  Relation.ReflTransGen (Step g) ({}, [⟨g.root, rootName, true⟩]) (w, tasks)

theorem run_eq_some_iff {n : Nat} :
    run g n w tasks = some w' ↔ proceed g n w tasks = (w', []) := by
  rw [run]
  cases proceed g n w tasks with | mk w₁ left =>
  cases left <;> simp

theorem proceed_steps (g : Graph) (n : Nat) (w : Walk) (tasks : List Task) :
    Relation.ReflTransGen (Step g) (w, tasks) (proceed g n w tasks) := by
  induction n generalizing w tasks with
  | zero => cases tasks <;> exact .refl
  | succ n ih =>
    cases tasks with
    | nil => exact .refl
    | cons task rest =>
      rw [proceed]
      cases hvisit : w.visit g task with
      | none => exact .refl
      | some r => exact .head (.visit hvisit) (ih r.1 (r.2 ++ rest))

theorem run_steps {n : Nat} (h : run g n w tasks = some w') :
    Relation.ReflTransGen (Step g) (w, tasks) (w', []) := by
  have hsteps := proceed_steps g n w tasks
  rwa [run_eq_some_iff.1 h] at hsteps

theorem faults_eq_nil_of_steps {s t : Walk × List Task} (h : Relation.ReflTransGen (Step g) s t)
    (hfaults : t.1.faults = []) : s.1.faults = [] := by
  induction h with
  | refl => exact hfaults
  | tail _ hstep ih =>
    cases hstep with
    | visit hvisit => exact ih (List.prefix_nil.1 (hfaults ▸ (visit_visits hvisit).faults))

/-- The induction along a walk, with the visits as they are made. -/
theorem Reached.induct_visit {rootName : Option String} {P : Walk → List Task → Prop}
    (start : P {} [⟨g.root, rootName, true⟩])
    (step : ∀ w task rest w' more, Reached g rootName w (task :: rest) → P w (task :: rest) →
      w.visit g task = some (w', more) → P w' (more ++ rest))
    (h : Reached g rootName w tasks) : P w tasks := by
  -- steps are between pairs, so the induction is on a pair
  have hP : ∀ s, Relation.ReflTransGen (Step g) ({}, [⟨g.root, rootName, true⟩]) s →
      P s.1 s.2 := by
    intro s hs
    induction hs with
    | refl => exact start
    | tail hreached hstep ih =>
      cases hstep with
      | visit hvisit => exact step _ _ _ _ _ hreached ih hvisit
  exact hP (w, tasks) h

/-- **The induction along a walk.** -/
theorem Reached.induct_walk {rootName : Option String} {P : Walk → List Task → Prop}
    (start : P {} [⟨g.root, rootName, true⟩])
    (step : ∀ w task rest w' more, Reached g rootName w (task :: rest) → P w (task :: rest) →
      Visits g w task w' more → P w' (more ++ rest))
    (h : Reached g rootName w tasks) : P w tasks :=
  h.induct_visit start fun w task rest w' more hreached ih hvisit =>
    step w task rest w' more hreached ih (visit_visits hvisit)

namespace Reached

variable {rootName : Option String}

theorem sound (h : Reached g rootName w tasks) : w.resolver.Sound :=
  h.induct_walk (P := fun w _ => w.resolver.Sound) .empty
    fun _ _ _ _ _ _ hsound hvisit => hsound.of_grows hvisit.grows

theorem forall_nameOf {Q : String → Prop} (h : Reached g rootName w tasks)
    (hnew : ∀ text c taken name, Identifier.typeName? text = some c →
      Identifier.IsFirstFree c taken name → Q name) :
    ∀ i name, w.resolver.nameOf i = some name → Q name := by
  refine h.induct_walk (P := fun w _ => ∀ i name, w.resolver.nameOf i = some name → Q name)
    (by simp [Resolver.nameOf]) ?_
  intro w task rest w' more _ ih hvisit
  refine hvisit.grows.forall_nameOf ?_ ih
  rintro i c taken name ⟨hint, hc⟩ hname
  obtain ⟨text, htext⟩ := Resolver.exists_text_of_candidate hc
  exact hnew text c taken name htext hname

theorem nameOf_of_mem (h : Reached g rootName w tasks) :
    ∀ c ∈ w.contracts, w.resolver.nameOf c.node = some c.name := by
  refine h.induct_walk (P := fun w _ => ∀ c ∈ w.contracts, w.resolver.nameOf c.node = some c.name)
    (by simp [contracts]) ?_
  intro w task rest w' more _ ih hvisit c hc
  rcases hvisit.old_or_named hc with hc | ⟨-, hname⟩
  · exact hvisit.grows.nameOf (ih c hc)
  · exact hname

theorem visited_of_mem (h : Reached g rootName w tasks) :
    ∀ c ∈ w.contracts, c.node ∈ w.visited := by
  refine h.induct_walk (P := fun w _ => ∀ c ∈ w.contracts, c.node ∈ w.visited)
    (by simp [contracts]) ?_
  intro w task rest w' more _ ih hvisit c hc
  rw [hvisit.mem_visited]
  rcases hvisit.old_or_named hc with hc | ⟨hnode, -⟩
  · exact .inr (ih c hc)
  · exact .inl hnode

/-- The walk starts at the root, and nothing that it comes to later starts it again. -/
theorem start_or_nested (h : Reached g rootName w tasks) :
    (w = {} ∧ tasks = [⟨g.root, rootName, true⟩]) ∨
      g.dereference g.root ∈ w.visited ∧ ∀ t ∈ tasks, t.isRoot = false := by
  refine h.induct_walk (P := fun w tasks => (w = {} ∧ tasks = [⟨g.root, rootName, true⟩]) ∨
      g.dereference g.root ∈ w.visited ∧ ∀ t ∈ tasks, t.isRoot = false) (.inl ⟨rfl, rfl⟩) ?_
  intro w task rest w' more _ ih hvisit
  refine .inr ⟨(hvisit.mem_visited _).2 ?_, fun t ht => ?_⟩
  · rcases ih with ⟨-, htasks⟩ | ⟨hroot, -⟩
    · obtain ⟨rfl, -⟩ := List.cons.inj htasks
      exact .inl rfl
    · exact .inr hroot
  · rcases List.mem_append.1 ht with ht | ht
    · exact hvisit.nested t ht
    · rcases ih with ⟨-, htasks⟩ | ⟨-, hnested⟩
      · obtain ⟨-, rfl⟩ := List.cons.inj htasks
        cases ht
      · exact hnested t (List.mem_cons_of_mem _ ht)

end Reached

/-! ### First visits -/

/-- The walk is about to visit a node for the first time. -/
structure FirstVisit (g : Graph) (rootName : Option String) (w : Walk) (task : Task)
    (rest : List Task) : Prop where
  /-- The walk comes to this state. -/
  reached : Reached g rootName w (task :: rest)
  /-- The node was not visited before. -/
  new : g.dereference task.node ∉ w.visited

section

variable {rootName : Option String} {rest : List Task}

theorem Reached.exists_firstVisit (h : Reached g rootName w tasks) :
    ∀ i ∈ w.visited, ∃ w₁ task rest, FirstVisit g rootName w₁ task rest ∧
      g.dereference task.node = i := by
  refine h.induct_walk (P := fun w _ => ∀ i ∈ w.visited, ∃ w₁ task rest,
    FirstVisit g rootName w₁ task rest ∧ g.dereference task.node = i) (by simp) ?_
  intro w task rest w' more hreached ih hvisit i hi
  by_cases hold : i ∈ w.visited
  · exact ih i hold
  · obtain rfl := ((hvisit.mem_visited i).1 hi).resolve_right hold
    exact ⟨w, task, rest, ⟨hreached, hold⟩, rfl⟩

theorem FirstVisit.isRoot_iff (h : FirstVisit g rootName w task rest) :
    task.isRoot = true ↔ g.dereference task.node = g.dereference g.root := by
  rcases h.reached.start_or_nested with ⟨-, htasks⟩ | ⟨hroot, hnested⟩
  · obtain ⟨rfl, -⟩ := List.cons.inj htasks
    simp
  · refine iff_of_false (by simp [hnested task List.mem_cons_self]) fun heq => ?_
    exact h.new (heq ▸ hroot)

theorem step_rightUnique : Relator.RightUnique (Step g) := by
  intro s t t' h h'
  cases h with
  | visit hvisit =>
    cases h' with
    | visit hvisit' =>
      obtain ⟨rfl, rfl⟩ := by simpa [hvisit] using hvisit'
      rfl

/-- From every state that a walk comes to it goes on to its end. -/
theorem Reached.steps_to_end (h : Reached g rootName w tasks) (hend : Reached g rootName w' []) :
    Relation.ReflTransGen (Step g) (w, tasks) (w', []) := by
  -- there is only one way to go, so one of the two states comes before the other
  rcases Relation.ReflTransGen.total_of_right_unique step_rightUnique h hend with hsteps | hsteps
  · exact hsteps
  · rcases Relation.ReflTransGen.cases_head hsteps with heq | ⟨_, hstep, -⟩
    · rw [heq]
    · cases hstep

theorem FirstVisit.exists_visits (h : FirstVisit g rootName w task rest)
    (hend : Reached g rootName w' []) :
    ∃ w₁ more, Visits g w task w₁ more ∧
      Relation.ReflTransGen (Step g) (w₁, more ++ rest) (w', []) := by
  have hsteps := h.reached.steps_to_end hend
  rcases Relation.ReflTransGen.cases_head hsteps with heq | ⟨_, hstep, hsteps⟩
  · cases heq
  · cases hstep with
    | visit hvisit => exact ⟨_, _, visit_visits hvisit, hsteps⟩

theorem mem_contracts_of_steps {s t : Walk × List Task} {i : NodeId}
    (h : Relation.ReflTransGen (Step g) s t) (hi : i ∈ s.1.visited) :
    i ∈ t.1.visited ∧
      (i ∈ t.1.contracts.map Contract.node ↔ i ∈ s.1.contracts.map Contract.node) := by
  induction h with
  | refl => exact ⟨hi, .rfl⟩
  | tail _ hstep ih =>
    cases hstep with
    | visit hvisit =>
      have hvisits := visit_visits hvisit
      exact ⟨(hvisits.mem_visited i).2 (.inr ih.1), (hvisits.mem_contracts ih.1).trans ih.2⟩

/-- **A node gets a contract at its first visit or never.** -/
theorem FirstVisit.mem_contracts_iff (h : FirstVisit g rootName w task rest)
    (hend : Reached g rootName w' []) :
    g.dereference task.node ∈ w'.contracts.map Contract.node ↔ w.Declares g task := by
  obtain ⟨w₁, more, hvisits, hsteps⟩ := h.exists_visits hend
  have hseen : g.dereference task.node ∈ w₁.visited := (hvisits.mem_visited _).2 (.inl rfl)
  have hbefore : g.dereference task.node ∉ w.contracts.map Contract.node := by
    intro hmem
    obtain ⟨c, hc, heq⟩ := List.mem_map.1 hmem
    exact h.new (heq ▸ h.reached.visited_of_mem c hc)
  rw [(mem_contracts_of_steps hsteps hseen).2]
  obtain ⟨hyes, c, hcontracts, hnode⟩ | ⟨hno, hcontracts⟩ := hvisits.contracts_of_new h.new
  · exact iff_of_true (by simp [hcontracts, hnode]) hyes
  · exact iff_of_false (hcontracts ▸ hbefore) hno

end

end Walk

/-- A plan is read off the state in which nothing is left to visit. -/
theorem Plan.reached_of_ofGraph {g : Graph} {rootName : Option String} {p : Plan}
    (h : Plan.ofGraph g rootName = some p) :
    ∃ w, Walk.Reached g rootName w [] ∧ p.contracts = w.contracts ∧ p.faults = w.faults ∧
      p.features = w.resolver.features := by
  simp only [Plan.ofGraph, Option.bind_eq_bind, Option.bind_eq_some_iff] at h
  obtain ⟨w, hrun, h⟩ := h
  obtain rfl := by simpa using h
  exact ⟨w, Walk.run_steps hrun, rfl, rfl, rfl⟩

end ContractGen
