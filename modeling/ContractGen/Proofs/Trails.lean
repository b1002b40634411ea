import ContractGen.Proofs.References
import ContractGen.Schema.Validity

/-!
# Checks that remember their way

`Graph.checkReferences` and `Graph.checkBases` go from node to node and keep the nodes they have
passed, to notice when they come to one of them again. Both also count their steps down, since a
loop has to end for a reason that is seen from outside. `Graph.Checks` and `Graph.ChecksBases` are
the same loops without the count.

The count never decides (`checkReferences_checks`, `checkBases_checks`). The nodes passed form a
`Trail`: they are different nodes of the graph, so they run out before the steps do.
-/

namespace ContractGen

open Relation (ReflTransGen TransGen)

namespace Schema.Graph

variable {g : Graph} {R : NodeId → NodeId → Prop} {id start next base : NodeId}
  {seen : List NodeId} {steps : Nat}

/-! ### Nodes on the way -/

/-- The nodes `seen` were passed on the way along `R` to `id`, each once. -/
structure Trail (R : NodeId → NodeId → Prop) (seen : List NodeId) (id : NodeId) : Prop where
  /-- No node was passed twice. -/
  nodup : seen.Nodup
  /-- The way leads from all of them to the node. -/
  leads : ∀ x ∈ seen, TransGen R x id

namespace Trail

theorem nil (R : NodeId → NodeId → Prop) (id : NodeId) : Trail R [] id := ⟨.nil, by simp⟩

theorem step (h : Trail R seen id) (hnew : id ∉ seen) (hnext : R id next) :
    Trail R (id :: seen) next where
  nodup := List.nodup_cons.2 ⟨hnew, h.nodup⟩
  leads := List.forall_mem_cons.2 ⟨.single hnext, fun x hx => (h.leads x hx).tail hnext⟩

/-- Where steps start at nodes only, no more than all nodes are passed. -/
theorem length_le_size (h : Trail R seen id) (hR : ∀ a b, R a b → a < g.size) :
    seen.length ≤ g.size := by
  refine length_le_of_nodup h.nodup fun x hx => ?_
  obtain ⟨b, hb, -⟩ := TransGen.head'_iff.1 (h.leads x hx)
  exact hR x b hb

end Trail

/-! ### References -/

/-- What the check of a chain of references comes to at `id`, if the nodes `seen` were passed before
and nothing bounds its steps. -/
inductive Checks (g : Graph) (start : NodeId) :
    List NodeId → NodeId → Except GraphError Unit → Prop where
  /-- The chain ends. -/
  | passes {seen : List NodeId} {id : NodeId} : g.target? id = none →
      Checks g start seen id (.ok ())
  /-- The chain comes to a reference that it has passed. -/
  | fails {seen : List NodeId} {id next : NodeId} : g.target? id = some next → id ∈ seen →
      Checks g start seen id (.error (.referenceCycle start))
  /-- The chain goes on. -/
  | goesOn {seen : List NodeId} {id next : NodeId} {out : Except GraphError Unit} :
      g.target? id = some next → id ∉ seen → Checks g start (id :: seen) next out →
      Checks g start seen id out

/-- **The bound of the check of references never decides.** -/
theorem checkReferences_checks (h : Trail (fun a b => g.target? a = some b) seen id)
    (hsteps : g.size < seen.length + steps) :
    g.Checks start seen id (g.checkReferences start steps seen id) := by
  induction steps generalizing seen id with
  | zero => exact absurd (h.length_le_size fun _ _ => lt_size_of_target?) (Nat.not_le.2 hsteps)
  | succ steps ih =>
    cases hnext : g.target? id with
    | none =>
      simp only [checkReferences, hnext]
      exact .passes hnext
    | some next =>
      by_cases hseen : id ∈ seen
      · simp only [checkReferences, hnext, List.contains_iff_mem.2 hseen, ↓reduceIte]
        exact .fails hnext hseen
      · have hrest := ih (h.step hseen hnext) (by rw [List.length_cons]; omega)
        simp only [checkReferences, hnext, List.contains_iff_mem, hseen, ↓reduceIte]
        exact .goesOn hnext hseen hrest

/-! ### Base types -/

/-- The base that an object declares. -/
def base? (g : Graph) (id : NodeId) : Option NodeId := (g.shape? id).bind (·.base)

/-- `a` inherits from the object `b`: that is what its base stands for. -/
def Inherits (g : Graph) (a b : NodeId) : Prop :=
  ∃ base, g.base? a = some base ∧ g.dereference base = b ∧ (g.shape? b).isSome = true

theorem lt_size_of_node? {node : Node} (h : g.node? id = some node) : id < g.size :=
  (Array.getElem?_eq_some_iff.1 h).1

theorem lt_size_of_base? (h : g.base? id = some base) : id < g.size := by
  obtain ⟨shape, hshape, -⟩ := Option.bind_eq_some_iff.1 h
  obtain ⟨node, hnode, -⟩ := Option.bind_eq_some_iff.1 hshape
  exact lt_size_of_node? hnode

theorem Inherits.lt_size {a b : NodeId} (h : g.Inherits a b) : a < g.size := by
  obtain ⟨base, hbase, -⟩ := h
  exact lt_size_of_base? hbase

/-- What the check of a chain of base types comes to at `id`, if the objects `seen` were passed
before and nothing bounds its steps. -/
inductive ChecksBases (g : Graph) (start : NodeId) :
    List NodeId → NodeId → Except GraphError Unit → Prop where
  /-- The chain comes to an object that it has passed. -/
  | revisits {seen : List NodeId} {id : NodeId} : id ∈ seen →
      ChecksBases g start seen id (.error (.inheritanceCycle start))
  /-- The chain ends. -/
  | passes {seen : List NodeId} {id : NodeId} : id ∉ seen → g.base? id = none →
      ChecksBases g start seen id (.ok ())
  /-- The chain leaves the objects. -/
  | leaves {seen : List NodeId} {id base : NodeId} : id ∉ seen → g.base? id = some base →
      g.shape? (g.dereference base) = none →
      ChecksBases g start seen id (.error (.invalidBaseType id base))
  /-- The chain goes on. -/
  | goesOn {seen : List NodeId} {id next : NodeId} {out : Except GraphError Unit} :
      id ∉ seen → g.Inherits id next → ChecksBases g start (id :: seen) next out →
      ChecksBases g start seen id out

/-- **The bound of the check of base types never decides.** -/
theorem checkBases_checks (h : Trail g.Inherits seen id)
    (hsteps : g.size < seen.length + steps) :
    g.ChecksBases start seen id (g.checkBases start steps seen id) := by
  induction steps generalizing seen id with
  | zero => exact absurd (h.length_le_size fun _ _ => Inherits.lt_size) (Nat.not_le.2 hsteps)
  | succ steps ih =>
    rw [checkBases, ← base?]
    by_cases hseen : id ∈ seen
    · simp only [List.contains_iff_mem.2 hseen, ↓reduceIte]
      exact .revisits hseen
    · simp only [List.contains_iff_mem, hseen, ↓reduceIte]
      cases hbase : g.base? id with
      | none => exact .passes hseen hbase
      | some base =>
        by_cases hshape : (g.shape? (g.dereference base)).isSome = true
        · have hnext : g.Inherits id (g.dereference base) := ⟨base, hbase, rfl, hshape⟩
          simp only [hshape, ↓reduceIte]
          exact .goesOn hseen hnext (ih (h.step hseen hnext) (by rw [List.length_cons]; omega))
        · simp only [hshape]
          exact .leaves hseen hbase (by simpa using hshape)

end Schema.Graph

end ContractGen
