import ContractGen.Proofs.FreeSuffix
import Mathlib.Data.List.Dedup

/-!
# How far the search for a free number goes

The search for a free number needs no bound: it tests one number after the other until a name is
free. `Identifier.turn` is one test, with a counter of 64 bits that may overflow, and
`Identifier.Ends` is a whole search, with the number of its tests.

`search_ends` says that every search ends and gives what `withFreeSuffix` gives. Up to the smallest
free number all names are taken, and they differ from each other, so there are at most as many as
there are taken names. Thus the search tests one name more at most, and the counter stays in its
range if there is room for as many numbers after the first.
-/

namespace ContractGen

namespace Identifier

/-! ### Searches -/

/-- How the test of one number ends. -/
inductive Turn where
  /-- The name is free. -/
  | found (name : String)
  /-- The name is taken, and the next number is tested. -/
  | next (n : UInt64)
  /-- The name is taken, and there is no next number. -/
  | overflow
deriving DecidableEq, Repr

/-- Test one number. -/
def turn (base : String) (taken : List String) (n : UInt64) : Turn :=
  if taken.contains (base ++ toString n.toNat) then
    if n.toNat + 1 < UInt64.size then .next (n + 1) else .overflow
  else .found (base ++ toString n.toNat)

/-- The search from `n` on ends after some tests. Its result is a name, or none if the counter
overflows. -/
inductive Ends (base : String) (taken : List String) : UInt64 → Nat → Option String → Prop where
  /-- A name is free. -/
  | found {n : UInt64} {name : String} (h : turn base taken n = .found name) :
    Ends base taken n 1 (some name)
  /-- The numbers are at their end. -/
  | overflow {n : UInt64} (h : turn base taken n = .overflow) : Ends base taken n 1 none
  /-- The search goes on. -/
  | next {n m : UInt64} {tests : Nat} {result : Option String}
    (h : turn base taken n = .next m) (hrest : Ends base taken m tests result) :
    Ends base taken n (tests + 1) result

variable {base : String} {taken : List String} {n m : UInt64} {tests tests' : Nat}
  {result result' : Option String}

theorem turn_of_free (h : base ++ toString n.toNat ∉ taken) :
    turn base taken n = .found (base ++ toString n.toNat) := by
  rw [turn, if_neg (mt List.contains_iff_mem.1 h)]

theorem turn_of_taken (h : base ++ toString n.toNat ∈ taken) (hroom : n.toNat + 1 < UInt64.size) :
    turn base taken n = .next (n + 1) := by
  rw [turn, if_pos (List.contains_iff_mem.2 h), if_pos hroom]

theorem turn_of_last (h : base ++ toString n.toNat ∈ taken) (hlast : n.toNat + 1 = UInt64.size) :
    turn base taken n = .overflow := by
  rw [turn, if_pos (List.contains_iff_mem.2 h), if_neg (by omega)]

theorem Ends.unique (h : Ends base taken n tests result) (h' : Ends base taken n tests' result') :
    tests = tests' ∧ result = result' := by
  induction h generalizing tests' with
  | found hturn => cases h' <;> simp_all
  | overflow hturn => cases h' <;> simp_all
  | next hturn _ ih =>
    cases h' with
    | found hturn' => simp_all
    | overflow hturn' => simp_all
    | next hturn' hrest' =>
      obtain rfl := Turn.next.inj (hturn.symm.trans hturn')
      obtain ⟨rfl, rfl⟩ := ih hrest'
      exact ⟨rfl, rfl⟩

/-- After `steps` taken names the search is where it would be if it began there. -/
theorem Ends.skip {steps : Nat} (hroom : n.toNat + steps < UInt64.size)
    (htaken : ∀ j, n.toNat ≤ j → j < n.toNat + steps → base ++ toString j ∈ taken)
    (hend : ∀ m : UInt64, m.toNat = n.toNat + steps → Ends base taken m tests result) :
    Ends base taken n (tests + steps) result := by
  induction steps generalizing n with
  | zero => exact hend n rfl
  | succ steps ih =>
    have hnext : (n + 1).toNat = n.toNat + 1 := by
      rw [UInt64.toNat_add, UInt64.toNat_one]
      exact Nat.mod_eq_of_lt (by simp only [UInt64.size] at hroom; omega)
    refine .next (turn_of_taken (htaken _ le_rfl (by omega)) (by omega)) (ih ?_ ?_ ?_)
    · omega
    · intro j hj hlt
      exact htaken j (by omega) (by omega)
    · intro m hm
      exact hend m (by omega)

/-! ### The end of a search -/

/-- The smallest free number is not further from the first than there are taken names. -/
theorem IsFreeSuffix.exists_near {start : Nat} {name : String}
    (h : IsFreeSuffix base start taken name) :
    ∃ k, start ≤ k ∧ k ≤ start + taken.dedup.length ∧ name = base ++ toString k ∧
      base ++ toString k ∉ taken ∧ ∀ j, start ≤ j → j < k → base ++ toString j ∈ taken := by
  obtain ⟨k, hk, rfl, hfree, hbelow⟩ := h
  obtain ⟨m, hm, hmle, hmfree⟩ := exists_free base start taken.dedup
  refine ⟨k, hk, ?_, rfl, hfree, hbelow⟩
  by_contra hgt
  exact hmfree (List.mem_dedup.2 (hbelow m hm (by omega)))

/-- **The search for a free number ends.** It tests at most one name more than are taken, and it
gives the name with the smallest free number unless the counter overflows, for which all numbers
that are left must be taken. There is only one end, and no overflow as long as the first number and
the number of taken names together are in the range of the counter. -/
theorem search_ends (base : String) (start : UInt64) (taken : List String) :
    IsFreeSuffix base start.toNat taken (withFreeSuffix base start.toNat taken) ∧
    ∃ tests result, tests ≤ taken.dedup.length + 1 ∧ Ends base taken start tests result ∧
      (∀ tests' result', Ends base taken start tests' result' →
        tests' = tests ∧ result' = result) ∧
      (result = some (withFreeSuffix base start.toNat taken) ∨
        result = none ∧ ∀ j, start.toNat ≤ j → j < UInt64.size → base ++ toString j ∈ taken) ∧
      (start.toNat + taken.dedup.length < UInt64.size →
        result = some (withFreeSuffix base start.toNat taken)) := by
  have hfree := withFreeSuffix_isFreeSuffix base start.toNat taken
  obtain ⟨k, hk, hnear, hname, hkfree, hbelow⟩ := hfree.exists_near
  refine ⟨hfree, ?_⟩
  rcases Nat.lt_or_ge k UInt64.size with hlt | hge
  · -- the search meets the smallest free number
    obtain ⟨steps, rfl⟩ := Nat.exists_eq_add_of_le hk
    have hends : Ends base taken start (1 + steps)
        (some (base ++ toString (start.toNat + steps))) := by
      refine .skip hlt hbelow fun m hm => .found ?_
      rw [← hm] at hkfree ⊢
      exact turn_of_free hkfree
    rw [hname]
    exact ⟨_, _, by omega, hends, fun _ _ h => h.unique hends, .inl rfl, fun _ => rfl⟩
  · -- the counter is at its end before that
    have hstart : start.toNat < UInt64.size := start.toNat_lt
    obtain ⟨steps, hsteps⟩ := Nat.exists_eq_add_of_lt hstart
    have hall : ∀ j, start.toNat ≤ j → j < UInt64.size → base ++ toString j ∈ taken :=
      fun j hj hlt => hbelow j hj (by omega)
    have hends : Ends base taken start (1 + steps) none :=
      .skip (by omega) (fun j hj hlt => hall j hj (by omega)) fun m hm =>
        .overflow (turn_of_last (hall _ (by omega) m.toNat_lt) (by omega))
    exact ⟨_, _, by omega, hends, fun _ _ h => h.unique hends, .inr ⟨rfl, hall⟩,
      fun hroom => by omega⟩

end Identifier

end ContractGen
