import ContractGen.Proofs.Verdict

/-!
# Circles of references

Two loops go along a chain of references. `Graph.dereference` takes one step more than there are
nodes and has no memory; `Graph.checkReferenceChain` remembers the nodes it has passed and stops
when it comes to one of them again. Here they are shown to agree on every graph.

* `Graph.Checks` is the check without a bound on its steps, which never decides
  (`checkReferences_checks`).
* A chain that ends is followed to its end by both.
* A chain that does not end runs into a circle. So many steps lead past all nodes on the way to it,
  and what is on a circle stays on it (`Endless.follow_onCircle`).
-/

namespace ContractGen

open Relation (ReflTransGen TransGen)

namespace Schema.Graph

variable {g : Graph} {id next : NodeId} {seen : List NodeId} {steps : Nat}

/-- There is a node at a position, and it is a reference. -/
def IsReference (g : Graph) (id : NodeId) : Prop :=
  ∃ node target, g.node? id = some node ∧ node.kind = .reference target

theorem isSome_target?_iff : (g.target? id).isSome = true ↔ g.IsReference id := by
  simp only [target?]
  split
  · rename_i target hkind
    obtain ⟨node, hnode, hkind⟩ := Option.map_eq_some_iff.1 hkind
    exact iff_of_true rfl ⟨node, target, hnode, hkind⟩
  · rename_i hno
    refine iff_of_false (by simp) ?_
    rintro ⟨node, target, hnode, hkind⟩
    exact hno target (by simp [hnode, hkind])

/-! ### Chains that do not end -/

theorem OnCircle.follow (h : g.OnCircle id) (steps : Nat) : g.OnCircle (g.follow steps id) := by
  induction steps generalizing id with
  | zero => exact h
  | succ steps ih =>
    simp only [Graph.follow]
    split
    · rename_i hnext
      exact ih (h.of_target hnext)
    · exact h

/-- References lead to whatever is come to by following them. -/
theorem reaches_follow (g : Graph) (steps : Nat) (id : NodeId) :
    ReflTransGen (fun a b => g.target? a = some b) id (g.follow steps id) := by
  induction steps generalizing id with
  | zero => exact .refl
  | succ steps ih =>
    simp only [follow]
    split
    · rename_i hnext
      exact .head hnext (ih _)
    · exact .refl

/-- **More steps than there are nodes lead to a circle**, where a chain does not end. -/
theorem Endless.follow_onCircle (h : g.Endless id)
    (ht : Trail (fun a b => g.target? a = some b) seen id)
    (hsteps : g.size < seen.length + steps) : g.OnCircle (g.follow steps id) := by
  induction steps generalizing seen id with
  | zero => exact absurd (ht.length_le_size fun _ _ => lt_size_of_target?) (Nat.not_le.2 hsteps)
  | succ steps ih =>
    -- a node that was passed before is on the circle, and a new one makes the trail longer
    by_cases hseen : id ∈ seen
    · exact OnCircle.follow (ht.leads id hseen) (steps + 1)
    · obtain ⟨next, hnext, hrest⟩ := h.exists_next
      simp only [follow, hnext]
      exact ih hrest (ht.step hseen hnext) (by rw [List.length_cons]; omega)

/-- **Following references agrees with the check for circles**, on every graph and for every
position. The check does what it would do without a bound. If the chain of references comes to its
end anywhere, be it outside of the graph or at a node that is no reference, then following leads
there and no further, and the check passes. Otherwise the check finds a circle, and following leads
to a reference that is on it. -/
theorem dereference_agrees (g : Graph) (id : NodeId) :
    g.Checks id [] id (g.checkReferenceChain id) ∧
    (∀ target, ReflTransGen (fun a b => g.target? a = some b) id target →
      ¬ g.IsReference target →
      g.dereference id = target ∧ g.dereference target = target ∧
        g.checkReferenceChain id = .ok ()) ∧
    ((∀ target, ReflTransGen (fun a b => g.target? a = some b) id target → g.IsReference target) →
      g.checkReferenceChain id = .error (.referenceCycle id) ∧
      ReflTransGen (fun a b => g.target? a = some b) id (g.dereference id) ∧
      g.IsReference (g.dereference id) ∧ g.OnCircle (g.dereference id)) := by
  refine ⟨checkReferences_checks (.nil _ id) (by simp), fun target hreach hend => ?_, fun h => ?_⟩
  · have hnone : g.target? target = none := by
      simpa [Option.isSome_iff_ne_none] using mt isSome_target?_iff.1 hend
    have hstands : g.StandsFor id target := ⟨hreach, hnone⟩
    exact ⟨hstands.dereference_eq, dereference_of_target?_eq_none hnone,
      checkReferenceChain_eq_ok_iff.2 (not_endless_iff.2 ⟨target, hstands⟩)⟩
  · have hendless : g.Endless id := fun i hi => isSome_target?_iff.2 (h i hi)
    have hreach := reaches_follow g (g.size + 1) id
    exact ⟨checkReferenceChain_eq_error_iff.2 ⟨hendless, rfl⟩, hreach, h _ hreach,
      hendless.follow_onCircle (.nil _ id) (by simp)⟩

/-- A chain through all nodes that leaves the graph, and one that runs into a circle. -/
example :
    let line : Graph := ⟨0, #[.ofKind (.reference 2), .ofKind (.reference 7),
      .ofKind (.reference 1)]⟩
    let lasso : Graph := ⟨0, #[.ofKind (.reference 2), .ofKind (.reference 2),
      .ofKind (.reference 1)]⟩
    line.dereference 0 = 7 ∧ line.checkReferenceChain 0 = .ok () ∧ lasso.dereference 0 = 1 ∧
      lasso.checkReferenceChain 0 = .error (.referenceCycle 0) := by decide

end Schema.Graph

end ContractGen
