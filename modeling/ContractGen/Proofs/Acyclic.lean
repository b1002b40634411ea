import Mathlib.Data.List.Nodup
import Mathlib.Data.List.Range
import Mathlib.Data.List.Perm.Subperm
import Mathlib.Logic.Relation

/-!
# Relations without circles

Chains of references, chains of base types and the descent through arrays and unions all go from
node to node of a graph with `n` nodes. Where no circle can be reached, no such chain is longer than
`n`, so `n` steps are enough for whatever is done along it (`AcyclicFrom.bounded`). A chain with one
way to go that comes to an end comes to no circle (`AcyclicFrom.of_end`).
-/

namespace ContractGen

open Relation (ReflTransGen TransGen)

/-- No circle of a relation can be reached from `a`. -/
def AcyclicFrom {α : Type} (R : α → α → Prop) (a : α) : Prop :=
  ∀ b, ReflTransGen R a b → ¬ TransGen R b b

theorem length_le_of_nodup {l : List Nat} {n : Nat} (h : l.Nodup) (hlt : ∀ x ∈ l, x < n) :
    l.length ≤ n := by
  have hsub : l ⊆ List.range n := fun x hx => List.mem_range.2 (hlt x hx)
  simpa using (List.subperm_of_subset h hsub).length_le

namespace AcyclicFrom

variable {α : Type} {R S : α → α → Prop} {a b : α}

theorem trans (h : AcyclicFrom R a) (hab : ReflTransGen R a b) : AcyclicFrom R b :=
  fun c hbc => h c (hab.trans hbc)

theorem mono (hSR : ∀ x y, S x y → R x y) (h : AcyclicFrom R a) : AcyclicFrom S a :=
  fun b hab hcycle => h b (ReflTransGen.mono hSR _ _ hab) (TransGen.mono hSR _ _ hcycle)

theorem of_irreflexive (h : ∀ b, ¬ TransGen R b b) : AcyclicFrom R a := fun b _ => h b

/-- From where a circle is reached, one step leads to where a circle is reached. -/
theorem exists_next_of_not (h : ¬ AcyclicFrom R a) : ∃ b, R a b ∧ ¬ AcyclicFrom R b := by
  simp only [AcyclicFrom, not_forall, not_not] at h
  obtain ⟨c, hac, hcycle⟩ := h
  rcases ReflTransGen.cases_head hac with rfl | ⟨b, hab, hbc⟩
  · obtain ⟨b, hab, hba⟩ := TransGen.head'_iff.1 hcycle
    exact ⟨b, hab, fun hb => hb a hba hcycle⟩
  · exact ⟨b, hab, fun hb => hb c hbc hcycle⟩

/-- **Bounded descent.** What can be done in any number of steps outside of the numbers below `n`,
and in one step more for a number than for all that it leads to, can be done in `n` steps where no
circle is reached. -/
theorem bounded {R : Nat → Nat → Prop} {n : Nat} {P : Nat → Nat → Prop}
    (out : ∀ steps a, n ≤ a → P steps a)
    (step : ∀ steps a, ¬ TransGen R a a → (∀ b, R a b → P steps b) → P (steps + 1) a)
    {a : Nat} (h : AcyclicFrom R a) {steps : Nat} (hsteps : n ≤ steps) : P steps a := by
  -- the numbers `seen` on the way to `a` are different, so the steps left are enough
  suffices hseen : ∀ (steps a : Nat) (seen : List Nat), AcyclicFrom R a → seen.Nodup →
      (∀ x ∈ seen, x < n ∧ TransGen R x a) → n ≤ seen.length + steps → P steps a from
    hseen steps a [] h .nil (by simp) (by simpa using hsteps)
  intro steps
  induction steps with
  | zero =>
    intro a seen h hnodup hseen hlen
    refine out 0 a (Nat.le_of_not_lt fun hlt => ?_)
    have hnew : a ∉ seen := fun hmem => h a .refl (hseen a hmem).2
    have hle : (a :: seen).length ≤ n := by
      refine length_le_of_nodup (List.nodup_cons.2 ⟨hnew, hnodup⟩) ?_
      exact List.forall_mem_cons.2 ⟨hlt, fun x hx => (hseen x hx).1⟩
    simp only [List.length_cons] at hle
    omega
  | succ steps ih =>
    intro a seen h hnodup hseen hlen
    by_cases hlt : a < n
    · refine step steps a (h a .refl) fun b hab => ?_
      have hnew : a ∉ seen := fun hmem => h a .refl (hseen a hmem).2
      refine ih b (a :: seen) (h.trans (.single hab)) (List.nodup_cons.2 ⟨hnew, hnodup⟩) ?_ ?_
      · refine List.forall_mem_cons.2 ⟨⟨hlt, .single hab⟩, fun x hx => ?_⟩
        exact ⟨(hseen x hx).1, (hseen x hx).2.tail hab⟩
      · simp only [List.length_cons]
        omega
    · exact out (steps + 1) a (Nat.le_of_not_lt hlt)

/-- Where there is one way to go, a chain that comes to an end comes to no circle. -/
theorem of_end (hR : Relator.RightUnique R) (hab : ReflTransGen R a b) (hend : ∀ c, ¬ R b c) :
    AcyclicFrom R a := by
  intro c hac hcycle
  have hcb : ReflTransGen R c b := by
    rcases ReflTransGen.total_of_right_unique hR hab hac with hbc | hcb
    · rcases ReflTransGen.cases_head hbc with heq | ⟨d, hbd, -⟩
      · rw [heq]
      · exact absurd hbd (hend d)
    · exact hcb
  -- a circle goes along with its chain to the end, which leads nowhere
  clear hac
  induction hcb using ReflTransGen.head_induction_on with
  | refl =>
    obtain ⟨d, hbd, -⟩ := TransGen.head'_iff.1 hcycle
    exact hend d hbd
  | head hcd _ ih =>
    obtain ⟨d, hcd', hdc⟩ := TransGen.head'_iff.1 hcycle
    obtain rfl := hR hcd hcd'
    exact ih (TransGen.tail' hdc hcd)

end AcyclicFrom

end ContractGen
