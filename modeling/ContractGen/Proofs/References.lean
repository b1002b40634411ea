import ContractGen.Proofs.Acyclic
import ContractGen.Schema.Graph

/-!
# Chains of references

`Graph.dereference` follows a bounded number of references. Here it is compared with the chain of
references itself: a node *stands for* the node at which its chain ends, and `dereference` finds
that node whenever there is one (`StandsFor.dereference_eq`). A chain that ends meets no node
twice, so it has no more references than the graph has nodes.
-/

namespace ContractGen

namespace Schema

namespace Graph

variable {g : Graph}

/-- `id` stands for `target`: references lead from one to the other, and end there. -/
def StandsFor (g : Graph) (id target : NodeId) : Prop :=
  Relation.ReflTransGen (fun a b => g.target? a = some b) id target ∧ g.target? target = none

/-- The references `ids` lead from `id` to `target`, in this order, and end there. -/
inductive Chain (g : Graph) : List NodeId → NodeId → NodeId → Prop where
  /-- A node that is no reference stands for itself. -/
  | done {id : NodeId} : g.target? id = none → Chain g [] id id
  /-- A reference stands for what its target stands for. -/
  | step {id next target : NodeId} {ids : List NodeId} :
      g.target? id = some next → Chain g ids next target → Chain g (id :: ids) id target

theorem lt_size_of_target? {id target : NodeId} (h : g.target? id = some target) :
    id < g.size := by
  by_contra hlt
  have hnone : g.nodes[id]? = none := Array.getElem?_eq_none (Nat.le_of_not_lt hlt)
  simp [target?, node?, hnone] at h

theorem follow_of_target?_eq_none {id : NodeId} (h : g.target? id = none) (n : Nat) :
    g.follow n id = id := by
  cases n with
  | zero => rfl
  | succ n => simp [follow, h]

theorem dereference_of_target?_eq_none {id : NodeId} (h : g.target? id = none) :
    g.dereference id = id :=
  follow_of_target?_eq_none h _

theorem target?_eq_none_of_kind {id : NodeId} {node : Node} (h : g.node? id = some node)
    (hkind : ∀ target, node.kind ≠ .reference target) : g.target? id = none := by
  simp only [target?, h, Option.map_some]
  split
  · rename_i target hk
    exact absurd (Option.some.inj hk) (hkind target)
  · rfl

namespace Chain

variable {id target : NodeId} {ids : List NodeId}

theorem unique {ids' : List NodeId} {target' : NodeId} (h : g.Chain ids id target)
    (h' : g.Chain ids' id target') : ids = ids' ∧ target = target' := by
  induction h generalizing ids' with
  | done hend =>
    cases h' with
    | done => exact ⟨rfl, rfl⟩
    | step hnext => simp [hend] at hnext
  | step hnext _ ih =>
    cases h' with
    | done hend => simp [hend] at hnext
    | step hnext' h' =>
      rw [hnext, Option.some.injEq] at hnext'
      subst hnext'
      obtain ⟨hids, htarget⟩ := ih h'
      exact ⟨by rw [hids], htarget⟩

theorem from_mem (h : g.Chain ids id target) {x : NodeId} (hx : x ∈ ids) :
    ∃ rest, g.Chain rest x target ∧ rest.length ≤ ids.length := by
  induction h with
  | done => simp at hx
  | @step id next target ids hnext h ih =>
    rcases List.mem_cons.1 hx with rfl | hx
    · exact ⟨x :: ids, .step hnext h, le_rfl⟩
    · obtain ⟨rest, hrest, hlen⟩ := ih hx
      exact ⟨rest, hrest, by simp; omega⟩

/-- A chain that ends meets no reference twice: what follows the second time would be as long as
what follows the first time. -/
theorem nodup (h : g.Chain ids id target) : ids.Nodup := by
  induction h with
  | done => exact List.nodup_nil
  | @step id next target ids hnext h ih =>
    refine List.nodup_cons.2 ⟨fun hid => ?_, ih⟩
    obtain ⟨rest, hrest, hlen⟩ := h.from_mem hid
    have hsame := (hrest.unique (.step hnext h)).1
    rw [hsame, List.length_cons] at hlen
    omega

theorem lt_size (h : g.Chain ids id target) : ∀ x ∈ ids, x < g.size := by
  induction h with
  | done => simp
  | step hnext _ ih => exact List.forall_mem_cons.2 ⟨lt_size_of_target? hnext, ih⟩

theorem length_le_size (h : g.Chain ids id target) : ids.length ≤ g.size :=
  length_le_of_nodup h.nodup h.lt_size

theorem follow_eq (h : g.Chain ids id target) {n : Nat} (hn : ids.length ≤ n) :
    g.follow n id = target := by
  induction h generalizing n with
  | done hend => exact follow_of_target?_eq_none hend n
  | step hnext _ ih =>
    cases n with
    | zero => simp at hn
    | succ n =>
      simp only [follow, hnext]
      exact ih (by simpa using hn)

end Chain

theorem StandsFor.exists_chain {id target : NodeId} (h : g.StandsFor id target) :
    ∃ ids, g.Chain ids id target := by
  obtain ⟨hpath, hend⟩ := h
  induction hpath using Relation.ReflTransGen.head_induction_on with
  | refl => exact ⟨[], .done hend⟩
  | head hnext _ ih =>
    obtain ⟨ids, hids⟩ := ih
    exact ⟨_, .step hnext hids⟩

/-- **A reference is followed to the end of its chain**, however long the chain is. -/
theorem StandsFor.dereference_eq {id target : NodeId} (h : g.StandsFor id target) :
    g.dereference id = target := by
  obtain ⟨ids, hids⟩ := h.exists_chain
  exact hids.follow_eq (Nat.le_succ_of_le hids.length_le_size)

end Graph

end Schema

end ContractGen
