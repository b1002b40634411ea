import ContractGen.Proofs.Outcomes
import ContractGen.Proofs.Trails
import Mathlib.Order.Bounds.Defs

/-!
# The verdict on a graph

`Graph.validate` checks four things, one after the other: the root, the pointers of all nodes, the
chains of references and the chains of base types. Here each check is compared with what it is
about, said without steps and without lists of nodes seen: a node *points astray*, a chain of
references is *endless*, a chain of base types *revisits* an object or *leaves* the objects. The
last two go through the loops without a bound (`Checks.cases`, `ChecksBases.cases`), so no answer is
owed to steps that have run out. `verdict_of_validate` says which verdict every graph gets.
-/

namespace ContractGen

open Relation (ReflTransGen TransGen)

namespace Schema.Graph

variable {g : Graph} {id start next : NodeId} {seen : List NodeId} {out : Except GraphError Unit}

theorem forM_ids_eq_ok_iff {f : NodeId → Except GraphError Unit} {Bad : NodeId → Prop}
    (hok : ∀ i, f i = .ok () ↔ ¬ Bad i) (hlt : ∀ i, Bad i → i < g.size) :
    g.ids.forM f = .ok () ↔ ∀ i, ¬ Bad i := by
  rw [ids, forM_range_eq_ok_iff]
  constructor
  · exact fun h i hbad => (hok i).1 (h i (hlt i hbad)) hbad
  · exact fun h i _ => (hok i).2 (h i)

/-- Otherwise the smallest bad node gives the error. -/
theorem forM_ids_eq_error_iff {f : NodeId → Except GraphError Unit} {Bad : NodeId → Prop}
    {e : GraphError} (hok : ∀ i, f i = .ok () ↔ ¬ Bad i) (hlt : ∀ i, Bad i → i < g.size) :
    g.ids.forM f = .error e ↔ ∃ i, IsLeast {i | Bad i} i ∧ f i = .error e := by
  rw [ids, forM_range_eq_error_iff]
  constructor
  · rintro ⟨i, -, herror, hbefore⟩
    have hbad : Bad i := by
      by_contra hgood
      rw [(hok i).2 hgood] at herror
      cases herror
    refine ⟨i, ⟨hbad, fun j hj => Nat.le_of_not_lt fun hji => ?_⟩, herror⟩
    exact (hok j).1 (hbefore j hji) hj
  · rintro ⟨i, ⟨hbad, hleast⟩, herror⟩
    refine ⟨i, hlt i hbad, herror, fun j hji => (hok j).2 fun hj => ?_⟩
    exact absurd (hleast hj) (Nat.not_le.2 hji)

/-! ### Pointers -/

theorem node?_eq_none_iff : g.node? id = none ↔ g.size ≤ id := by
  simp [node?, size]

theorem exists_node_of_lt (h : id < g.size) : ∃ node, g.node? id = some node :=
  ⟨g.nodes[id], Array.getElem?_eq_getElem h⟩

/-- A node points at no node. -/
def PointsAstray (g : Graph) (id : NodeId) : Prop :=
  ∃ node, g.node? id = some node ∧ ∃ child ∈ node.kind.children, g.size ≤ child

/-- `target` is the first pointer of a node that hits nothing. -/
def FirstAstray (g : Graph) (id target : NodeId) : Prop :=
  ∃ node before after, g.node? id = some node ∧
    node.kind.children = before ++ target :: after ∧ (∀ child ∈ before, child < g.size) ∧
    g.size ≤ target

theorem PointsAstray.lt_size (h : g.PointsAstray id) : id < g.size := by
  obtain ⟨node, hnode, -⟩ := h
  exact lt_size_of_node? hnode

theorem firstDangling?_eq_some_iff {target : NodeId} :
    g.firstDangling? id = some target ↔ g.FirstAstray id target := by
  simp only [firstDangling?, FirstAstray, Option.bind_eq_some_iff,
    List.find?_eq_some_iff_append, Option.isNone_iff_eq_none, node?_eq_none_iff]
  constructor
  · rintro ⟨node, hnode, hastray, before, after, hchildren, hbefore⟩
    refine ⟨node, before, after, hnode, hchildren, fun child hchild => ?_, hastray⟩
    simpa [node?, size] using hbefore child hchild
  · rintro ⟨node, before, after, hnode, hchildren, hbefore, hastray⟩
    refine ⟨node, hnode, hastray, before, after, hchildren, fun child hchild => ?_⟩
    simpa [node?, size] using hbefore child hchild

theorem firstDangling?_eq_none_iff : g.firstDangling? id = none ↔ ¬ g.PointsAstray id := by
  simp [firstDangling?, PointsAstray, node?_eq_none_iff]

/-- The check of the pointers of a node. -/
def checkPointers (g : Graph) (id : NodeId) : Except GraphError Unit :=
  match g.firstDangling? id with
  | some target => throw (.undefinedReference id target)
  | none => pure ()

theorem checkPointers_eq_ok_iff : g.checkPointers id = .ok () ↔ ¬ g.PointsAstray id := by
  rw [← firstDangling?_eq_none_iff, checkPointers]
  cases g.firstDangling? id <;> simp [throw, throwThe, MonadExceptOf.throw, pure, Except.pure]

theorem checkPointers_eq_error_iff {e : GraphError} : g.checkPointers id = .error e ↔
    ∃ target, g.FirstAstray id target ∧ e = .undefinedReference id target := by
  simp only [← firstDangling?_eq_some_iff, checkPointers]
  cases g.firstDangling? id <;>
    simp [throw, throwThe, MonadExceptOf.throw, pure, Except.pure, eq_comm]

/-! ### Chains of references -/

/-- The chain of references from a node never ends: wherever it leads, it goes on. -/
def Endless (g : Graph) (id : NodeId) : Prop :=
  ∀ i, ReflTransGen (fun a b => g.target? a = some b) id i → (g.target? i).isSome = true

theorem not_endless_iff : ¬ g.Endless id ↔ ∃ target, g.StandsFor id target := by
  simp [Endless, StandsFor]

theorem Endless.exists_next (h : g.Endless id) :
    ∃ next, g.target? id = some next ∧ g.Endless next := by
  obtain ⟨next, hnext⟩ := Option.isSome_iff_exists.1 (h id .refl)
  exact ⟨next, hnext, fun i hi => h i (.head hnext hi)⟩

theorem Endless.lt_size (h : g.Endless id) : id < g.size := by
  obtain ⟨next, hnext, -⟩ := h.exists_next
  exact lt_size_of_target? hnext

theorem endless_iff_of_target? (hnext : g.target? id = some next) :
    g.Endless id ↔ g.Endless next := by
  constructor
  · intro h
    obtain ⟨next', hnext', hrest⟩ := h.exists_next
    rwa [Option.some.inj (hnext.symm.trans hnext')]
  · intro h i hi
    rcases ReflTransGen.cases_head hi with rfl | ⟨b, hb, hrest⟩
    · simp [hnext]
    · obtain rfl := Option.some.inj (hnext.symm.trans hb)
      exact h i hrest

/-- References lead from a node back to it. -/
def OnCircle (g : Graph) (id : NodeId) : Prop := TransGen (fun a b => g.target? a = some b) id id

theorem OnCircle.of_target (h : g.OnCircle id) (hnext : g.target? id = some next) :
    g.OnCircle next := by
  obtain ⟨b, hb, hback⟩ := TransGen.head'_iff.1 h
  obtain rfl := Option.some.inj (hnext.symm.trans hb)
  exact TransGen.tail' hback hnext

theorem OnCircle.endless (h : g.OnCircle id) : g.Endless id := by
  intro i hi
  have hcircle : g.OnCircle i := by
    induction hi with
    | refl => exact h
    | tail _ hnext ih => exact ih.of_target hnext
  obtain ⟨b, hb, -⟩ := TransGen.head'_iff.1 hcircle
  simp [hb]

/-- The check passes where the chain ends, and fails where it does not. -/
theorem Checks.cases (h : g.Checks start seen id out)
    (ht : Trail (fun a b => g.target? a = some b) seen id) :
    out = .ok () ∧ ¬ g.Endless id ∨ out = .error (.referenceCycle start) ∧ g.Endless id := by
  induction h with
  | @passes seen id hend =>
    refine .inl ⟨rfl, fun hendless => ?_⟩
    simpa [hend] using hendless id .refl
  | fails _ hmem =>
    -- the way from a node that was passed leads back to it
    exact .inr ⟨rfl, OnCircle.endless (ht.leads _ hmem)⟩
  | goesOn hnext hnew _ ih =>
    rw [endless_iff_of_target? hnext]
    exact ih (ht.step hnew hnext)

theorem checkReferenceChain_cases (g : Graph) (id : NodeId) :
    g.checkReferenceChain id = .ok () ∧ ¬ g.Endless id ∨
      g.checkReferenceChain id = .error (.referenceCycle id) ∧ g.Endless id :=
  Checks.cases (checkReferences_checks (.nil _ id) (by simp)) (.nil _ id)

/-- **A chain of references passes just if it ends.** -/
theorem checkReferenceChain_eq_ok_iff : g.checkReferenceChain id = .ok () ↔ ¬ g.Endless id := by
  obtain ⟨hok, hends⟩ | ⟨herror, hendless⟩ := checkReferenceChain_cases g id
  · exact iff_of_true hok hends
  · exact iff_of_false (by simp [herror]) (not_not.2 hendless)

theorem checkReferenceChain_eq_error_iff {e : GraphError} :
    g.checkReferenceChain id = .error e ↔ g.Endless id ∧ e = .referenceCycle id := by
  obtain ⟨hok, hends⟩ | ⟨herror, hendless⟩ := checkReferenceChain_cases g id
  · simp [hok, hends]
  · simp [herror, hendless, eq_comm]

theorem checkReferenceChain_eq :
    (if (g.target? id).isSome then g.checkReferenceChain id else pure ()) =
      g.checkReferenceChain id := by
  split
  · rfl
  · rename_i hnone
    rw [Bool.not_eq_true, Option.isSome_eq_false_iff, Option.isNone_iff_eq_none] at hnone
    simp [checkReferenceChain, checkReferences, hnone, pure, Except.pure]

/-! ### Chains of base types -/

/-- The chain of base types from an object comes to some object twice. -/
def Revisits (g : Graph) (id : NodeId) : Prop :=
  ∃ a, ReflTransGen g.Inherits id a ∧ TransGen g.Inherits a a

/-- The chain of base types from an object comes to `node`, whose `base` stands for no object. -/
def LeavesObjects (g : Graph) (id node base : NodeId) : Prop :=
  ReflTransGen g.Inherits id node ∧ g.base? node = some base ∧
    g.shape? (g.dereference base) = none

/-- Something is wrong with the chain of base types from a node, which is then an object with a
base. -/
def BasesFail (g : Graph) (id : NodeId) : Prop :=
  g.Revisits id ∨ ∃ node base, g.LeavesObjects id node base

theorem inherits_rightUnique : Relator.RightUnique g.Inherits := by
  rintro a b c ⟨base, hbase, rfl, -⟩ ⟨base', hbase', rfl, -⟩
  rw [Option.some.inj (hbase.symm.trans hbase')]

theorem not_revisits_iff : ¬ g.Revisits id ↔ AcyclicFrom g.Inherits id := by
  simp [Revisits, AcyclicFrom]

theorem Revisits.exists_next (h : g.Revisits id) : ∃ b, g.Inherits id b ∧ g.Revisits b := by
  obtain ⟨b, hb, hrest⟩ := AcyclicFrom.exists_next_of_not fun hno => not_revisits_iff.2 hno h
  exact ⟨b, hb, not_not.1 fun hno => hrest (not_revisits_iff.1 hno)⟩

theorem LeavesObjects.end {node base : NodeId} (h : g.LeavesObjects id node base) (b : NodeId) :
    ¬ g.Inherits node b := by
  rintro ⟨base', hbase', rfl, hshape⟩
  obtain ⟨-, hbase, hnone⟩ := h
  obtain rfl := Option.some.inj (hbase.symm.trans hbase')
  simp [hnone] at hshape

theorem BasesFail.lt_size (h : g.BasesFail id) : id < g.size := by
  rcases h with hrevisits | ⟨node, base, hreach, hbase, -⟩
  · obtain ⟨b, hb, -⟩ := hrevisits.exists_next
    exact hb.lt_size
  · rcases ReflTransGen.cases_head hreach with rfl | ⟨b, hb, -⟩
    · exact lt_size_of_base? hbase
    · exact hb.lt_size

theorem end_unique {a b : NodeId} (ha : ReflTransGen g.Inherits id a)
    (hb : ReflTransGen g.Inherits id b) (haend : ∀ c, ¬ g.Inherits a c)
    (hbend : ∀ c, ¬ g.Inherits b c) : a = b := by
  rcases ReflTransGen.total_of_right_unique inherits_rightUnique ha hb with hab | hba
  · rcases ReflTransGen.cases_head hab with heq | ⟨c, hc, -⟩
    · exact heq
    · exact absurd hc (haend c)
  · rcases ReflTransGen.cases_head hba with heq | ⟨c, hc, -⟩
    · exact heq.symm
    · exact absurd hc (hbend c)

/-- A chain that leaves the objects does not come back to one. -/
theorem LeavesObjects.not_revisits {node base : NodeId} (h : g.LeavesObjects id node base) :
    ¬ g.Revisits id :=
  not_revisits_iff.2 (.of_end inherits_rightUnique h.1 h.end)

/-- What is wrong with a chain of base types is wrong with the rest of it. -/
theorem BasesFail.of_inherits (h : g.BasesFail id) (hnext : g.Inherits id next) :
    g.BasesFail next := by
  rcases h with hrevisits | ⟨node, base, hleaves⟩
  · obtain ⟨b, hb, hrest⟩ := hrevisits.exists_next
    obtain rfl := inherits_rightUnique hnext hb
    exact .inl hrest
  · rcases ReflTransGen.cases_head hleaves.1 with rfl | ⟨b, hb, hrest⟩
    · exact absurd hnext (hleaves.end next)
    · obtain rfl := inherits_rightUnique hnext hb
      exact .inr ⟨node, base, hrest, hleaves.2⟩

/-- **The verdict on a chain of base types**: it passes, leaves the objects, or revisits one. -/
theorem ChecksBases.cases (h : g.ChecksBases start seen id out) (ht : Trail g.Inherits seen id) :
    (out = .ok () ∧ ¬ g.BasesFail id) ∨
      (out = .error (.inheritanceCycle start) ∧ g.Revisits id) ∨
      ∃ node base, out = .error (.invalidBaseType node base) ∧ g.LeavesObjects id node base := by
  induction h with
  | @revisits seen id hmem => exact .inr (.inl ⟨rfl, id, .refl, ht.leads id hmem⟩)
  | @passes seen id _ hnone =>
    have hend : ∀ b, ¬ g.Inherits id b := by
      rintro b ⟨base, hbase, -⟩
      simp [hnone] at hbase
    refine .inl ⟨rfl, ?_⟩
    rintro (hrevisits | ⟨node, base, hreach, hbase, -⟩)
    · obtain ⟨b, hb, -⟩ := hrevisits.exists_next
      exact hend b hb
    · rcases ReflTransGen.cases_head hreach with rfl | ⟨b, hb, -⟩
      · simp [hnone] at hbase
      · exact hend b hb
  | @leaves seen id base _ hbase hshape => exact .inr (.inr ⟨id, base, rfl, .refl, hbase, hshape⟩)
  | goesOn hnew hnext _ ih =>
    obtain ⟨hok, hgood⟩ | ⟨herror, a, ha, hcircle⟩ | ⟨node, base, herror, hreach, hleaves⟩ :=
      ih (ht.step hnew hnext)
    · exact .inl ⟨hok, fun hfail => hgood (hfail.of_inherits hnext)⟩
    · exact .inr (.inl ⟨herror, a, .head hnext ha, hcircle⟩)
    · exact .inr (.inr ⟨node, base, herror, .head hnext hreach, hleaves⟩)

theorem checkBaseChain_cases (g : Graph) (id : NodeId) :
    (g.checkBaseChain id = .ok () ∧ ¬ g.BasesFail id) ∨
      (g.checkBaseChain id = .error (.inheritanceCycle id) ∧ g.Revisits id) ∨
      ∃ node base, g.checkBaseChain id = .error (.invalidBaseType node base) ∧
        g.LeavesObjects id node base :=
  ChecksBases.cases (checkBases_checks (.nil _ id) (by simp)) (.nil _ id)

theorem checkBaseChain_eq_ok_iff : g.checkBaseChain id = .ok () ↔ ¬ g.BasesFail id := by
  obtain ⟨hok, hgood⟩ | ⟨herror, hrevisits⟩ | ⟨node, base, herror, hleaves⟩ :=
    checkBaseChain_cases g id
  · exact iff_of_true hok hgood
  · exact iff_of_false (by simp [herror]) fun hgood => hgood (.inl hrevisits)
  · exact iff_of_false (by simp [herror]) fun hgood => hgood (.inr ⟨node, base, hleaves⟩)

theorem checkBaseChain_eq_error_iff {e : GraphError} :
    g.checkBaseChain id = .error e ↔ (g.Revisits id ∧ e = .inheritanceCycle id) ∨
      ∃ node base, g.LeavesObjects id node base ∧ e = .invalidBaseType node base := by
  obtain ⟨hok, hgood⟩ | ⟨herror, hrevisits⟩ | ⟨node, base, herror, hleaves⟩ :=
    checkBaseChain_cases g id
  · refine iff_of_false (by simp [hok]) ?_
    rintro (⟨hrevisits, -⟩ | ⟨node, base, hleaves, -⟩)
    · exact hgood (.inl hrevisits)
    · exact hgood (.inr ⟨node, base, hleaves⟩)
  · have hno : ∀ node base, ¬ g.LeavesObjects id node base :=
      fun node base hleaves => hleaves.not_revisits hrevisits
    simp [herror, hrevisits, hno, eq_comm]
  · rw [herror]
    constructor
    · rintro ⟨⟩
      exact .inr ⟨node, base, hleaves, rfl⟩
    · rintro (⟨hrevisits, -⟩ | ⟨node', base', hleaves', rfl⟩)
      · exact absurd hrevisits hleaves.not_revisits
      · obtain rfl := end_unique hleaves.1 hleaves'.1 hleaves.end hleaves'.end
        obtain rfl := Option.some.inj (hleaves.2.1.symm.trans hleaves'.2.1)
        rfl

theorem checkBaseChain_eq :
    (if ((g.shape? id).bind (·.base)).isSome then g.checkBaseChain id else pure ()) =
      g.checkBaseChain id := by
  split
  · rfl
  · rename_i hnone
    rw [Bool.not_eq_true, Option.isSome_eq_false_iff, Option.isNone_iff_eq_none] at hnone
    simp [checkBaseChain, checkBases, hnone, pure, Except.pure]

/-! ### The whole verdict -/

/-- The checks of a graph, one after the other. -/
theorem validate_eq (g : Graph) : g.validate =
    if g.size ≤ g.root then .error (.missingRoot g.root)
    else g.ids.forM g.checkPointers >>= fun _ => g.ids.forM g.checkReferenceChain >>= fun _ =>
      g.ids.forM g.checkBaseChain := by
  simp only [validate, checkReferenceChain_eq, checkBaseChain_eq]
  by_cases hroot : g.size ≤ g.root
  · simp only [hroot, node?_eq_none_iff.2 hroot]
    rfl
  · obtain ⟨node, hnode⟩ := exists_node_of_lt (Nat.lt_of_not_le hroot)
    simp only [hroot, hnode]
    rfl

/-- **Which graphs are sound.** -/
theorem validate_eq_ok_iff (g : Graph) : g.validate = .ok () ↔
    g.root < g.size ∧ (∀ i, ¬ g.PointsAstray i) ∧ (∀ i, ¬ g.Endless i) ∧
      ∀ i, ¬ g.BasesFail i := by
  rw [validate_eq]
  split
  · rename_i hroot
    exact iff_of_false (by simp) fun h => absurd h.1 (Nat.not_lt.2 hroot)
  · rename_i hroot
    rw [seq_eq_ok_iff, seq_eq_ok_iff,
      forM_ids_eq_ok_iff (fun _ => checkPointers_eq_ok_iff) (fun _ => PointsAstray.lt_size),
      forM_ids_eq_ok_iff (fun _ => checkReferenceChain_eq_ok_iff) (fun _ => Endless.lt_size),
      forM_ids_eq_ok_iff (fun _ => checkBaseChain_eq_ok_iff) (fun _ => BasesFail.lt_size)]
    exact (and_iff_right (Nat.lt_of_not_le hroot)).symm

/-- **What is wrong with the others**: of the first check that fails, the smallest node that fails
it. -/
theorem validate_eq_error_iff (g : Graph) (e : GraphError) : g.validate = .error e ↔
    g.size ≤ g.root ∧ e = .missingRoot g.root ∨
    g.root < g.size ∧
      ((∃ i, IsLeast {i | g.PointsAstray i} i ∧
          ∃ target, g.FirstAstray i target ∧ e = .undefinedReference i target) ∨
        (∀ i, ¬ g.PointsAstray i) ∧
          ((∃ i, IsLeast {i | g.Endless i} i ∧ e = .referenceCycle i) ∨
            (∀ i, ¬ g.Endless i) ∧ ∃ i, IsLeast {i | g.BasesFail i} i ∧
              (g.Revisits i ∧ e = .inheritanceCycle i ∨
                ∃ node base, g.LeavesObjects i node base ∧ e = .invalidBaseType node base))) := by
  rw [validate_eq]
  split
  · rename_i hroot
    simp [hroot, Nat.not_lt.2 hroot, eq_comm]
  · rename_i hroot
    have hendless : ∀ i, (IsLeast {i | g.Endless i} i ∧ g.Endless i ∧ e = .referenceCycle i) ↔
        IsLeast {i | g.Endless i} i ∧ e = .referenceCycle i :=
      fun i => and_congr_right fun hi => and_iff_right hi.1
    rw [seq_eq_error_iff, seq_eq_error_iff,
      forM_ids_eq_ok_iff (fun _ => checkPointers_eq_ok_iff) (fun _ => PointsAstray.lt_size),
      forM_ids_eq_error_iff (fun _ => checkPointers_eq_ok_iff) (fun _ => PointsAstray.lt_size),
      forM_ids_eq_ok_iff (fun _ => checkReferenceChain_eq_ok_iff) (fun _ => Endless.lt_size),
      forM_ids_eq_error_iff (fun _ => checkReferenceChain_eq_ok_iff) (fun _ => Endless.lt_size),
      forM_ids_eq_error_iff (fun _ => checkBaseChain_eq_ok_iff) (fun _ => BasesFail.lt_size)]
    simp only [checkPointers_eq_error_iff, checkReferenceChain_eq_error_iff,
      checkBaseChain_eq_error_iff, hendless, hroot, Nat.lt_of_not_le hroot, false_and, false_or,
      true_and]

/-! ### Sound graphs -/

section

variable (hvalid : g.validate = .ok ())

include hvalid

theorem lt_size_of_child {node : Node} {child : NodeId} (hnode : g.node? id = some node)
    (hchild : child ∈ node.kind.children) : child < g.size := by
  by_contra hlt
  exact ((validate_eq_ok_iff g).1 hvalid).2.1 id ⟨node, hnode, child, hchild, Nat.le_of_not_lt hlt⟩

/-- In a sound graph every node stands for the one that it is dereferenced to. -/
theorem standsFor_dereference (id : NodeId) : g.StandsFor id (g.dereference id) := by
  obtain ⟨target, htarget⟩ := not_endless_iff.1 (((validate_eq_ok_iff g).1 hvalid).2.2.1 id)
  rw [htarget.dereference_eq]
  exact htarget

theorem dereference_lt_size (h : id < g.size) : g.dereference id < g.size := by
  have hreach : ∀ t, ReflTransGen (fun a b => g.target? a = some b) id t → t < g.size := by
    intro t hpath
    induction hpath with
    | refl => exact h
    | @tail a b _ hnext _ =>
      obtain ⟨node, hnode⟩ := exists_node_of_lt (lt_size_of_target? hnext)
      refine lt_size_of_child hvalid hnode ?_
      simp only [target?, hnode, Option.map_some] at hnext
      split at hnext
      · rename_i target hkind
        obtain rfl := Option.some.inj hnext
        simp [Option.some.inj hkind, Kind.children]
      · cases hnext
  exact hreach _ (standsFor_dereference hvalid id).1

/-- In a sound graph a pointer leads to a node that is no reference. -/
theorem exists_dereferenced (h : id < g.size) :
    ∃ node, g.node? (g.dereference id) = some node ∧ ∀ target, node.kind ≠ .reference target := by
  obtain ⟨node, hnode⟩ := exists_node_of_lt (dereference_lt_size hvalid h)
  refine ⟨node, hnode, fun target hkind => ?_⟩
  have hend := (standsFor_dereference hvalid id).2
  simp [target?, hnode, hkind] at hend

theorem acyclicFrom_inherits (id : NodeId) : AcyclicFrom g.Inherits id :=
  not_revisits_iff.1 fun h => ((validate_eq_ok_iff g).1 hvalid).2.2.2 id (.inl h)

theorem exists_shape_of_base {shape : Shape} {base : NodeId} (hshape : g.shape? id = some shape)
    (hbase : shape.base = some base) : ∃ shape', g.shape? (g.dereference base) = some shape' := by
  by_contra hno
  have hnone : g.shape? (g.dereference base) = none :=
    Option.eq_none_iff_forall_ne_some.2 fun shape' hshape' => hno ⟨shape', hshape'⟩
  have hleaves : g.LeavesObjects id id base := ⟨.refl, by simp [base?, hshape, hbase], hnone⟩
  exact ((validate_eq_ok_iff g).1 hvalid).2.2.2 id (.inr ⟨id, base, hleaves⟩)

end

/-- **The verdict on every graph.** A graph is sound just if its root is a node, all pointers hit
nodes, no chain of references is endless, and chains of base types neither revisit an object nor
leave the objects. Otherwise the first of these that fails gives the error, at the smallest node
that fails it: with the first pointer that hits nothing, and for base types with the circle at its
start or with the object whose base is none. The loops along references and base types answer what
they would answer without a bound on their steps. -/
theorem verdict_of_validate (g : Graph) :
    (g.validate = .ok () ↔ g.root < g.size ∧ (∀ i, ¬ g.PointsAstray i) ∧ (∀ i, ¬ g.Endless i) ∧
      ∀ i, ¬ g.BasesFail i) ∧
    (∀ root, g.validate = .error (.missingRoot root) ↔ g.size ≤ g.root ∧ root = g.root) ∧
    (∀ id target, g.validate = .error (.undefinedReference id target) ↔ g.root < g.size ∧
      IsLeast {i | g.PointsAstray i} id ∧ g.FirstAstray id target) ∧
    (∀ start, g.validate = .error (.referenceCycle start) ↔ g.root < g.size ∧
      (∀ i, ¬ g.PointsAstray i) ∧ IsLeast {i | g.Endless i} start) ∧
    (∀ start, g.validate = .error (.inheritanceCycle start) ↔ g.root < g.size ∧
      (∀ i, ¬ g.PointsAstray i) ∧ (∀ i, ¬ g.Endless i) ∧
      IsLeast {i | g.BasesFail i} start ∧ g.Revisits start) ∧
    (∀ node base, g.validate = .error (.invalidBaseType node base) ↔ g.root < g.size ∧
      (∀ i, ¬ g.PointsAstray i) ∧ (∀ i, ¬ g.Endless i) ∧
      ∃ start, IsLeast {i | g.BasesFail i} start ∧ g.LeavesObjects start node base) ∧
    (∀ i, g.Checks i [] i (g.checkReferenceChain i)) ∧
    ∀ i, g.ChecksBases i [] i (g.checkBaseChain i) := by
  refine ⟨validate_eq_ok_iff g, ?_, ?_, ?_, ?_, ?_, fun i => ?_, fun i => ?_⟩
  · simp [validate_eq_error_iff]
  · simp [validate_eq_error_iff]
  · simp [validate_eq_error_iff]
  · simp [validate_eq_error_iff]
  · simp [validate_eq_error_iff]
  · exact checkReferences_checks (.nil _ i) (by simp)
  · exact checkBases_checks (.nil _ i) (by simp)

/-- The second and the third object inherit from each other. The first is on the way to that circle,
not on it, and is the smallest all the same. -/
example : validate ⟨0, #[.ofKind (.object ⟨[], some 1, false, none⟩),
    .ofKind (.object ⟨[], some 2, false, none⟩), .ofKind (.object ⟨[], some 1, false, none⟩)]⟩ =
    .error (.inheritanceCycle 0) := by decide

end Schema.Graph

end ContractGen
