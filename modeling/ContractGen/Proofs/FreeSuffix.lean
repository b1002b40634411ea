import ContractGen.Identifier.Suffix
import Mathlib.Data.List.Nodup
import Mathlib.Data.List.Range
import Mathlib.Data.List.Perm.Subperm

/-!
# The smallest free number

`withFreeSuffix` searches a bounded range of numbers. `withFreeSuffix_isFreeSuffix` says that the
bound never shows: the result is always the name with the smallest number that makes it free.
Different numbers give different names, so of one more names than are taken one is free.

Types, members, literals and cases are all kept apart in one way: a name is kept if it is free, and
gets a number otherwise. `IsChosen` says this of one name. Where each name of a row is chosen so
with all earlier ones taken, they differ from each other (`nodup_of_not_mem_take`).
-/

namespace ContractGen

namespace Identifier

/-- `name` is `base` followed by the smallest number from `start` on that makes it free. -/
def IsFreeSuffix (base : String) (start : Nat) (taken : List String) (name : String) : Prop :=
  ∃ k, start ≤ k ∧ name = base ++ toString k ∧ name ∉ taken ∧
    ∀ j, start ≤ j → j < k → base ++ toString j ∈ taken

/-- `name` is `candidate` if that is free, and otherwise that with the smallest number from two
on that makes it free. -/
def IsFirstFree (candidate : String) (taken : List String) (name : String) : Prop :=
  (candidate ∉ taken ∧ name = candidate) ∨
    (candidate ∈ taken ∧ IsFreeSuffix candidate 2 taken name)

theorem append_toString_inj {base : String} {m n : Nat} :
    base ++ toString m = base ++ toString n ↔ m = n := by
  rw [String.append_right_inj]
  refine ⟨fun h => ?_, fun h => h ▸ rfl⟩
  -- the digits of a number give it back
  have hdigits := congrArg (fun s => Nat.ofDigitChars 10 s.toList 0) h
  simpa [toString] using hdigits

/-- The numbers from `start` on are not all taken as far as there are taken names. -/
theorem exists_free (base : String) (start : Nat) (taken : List String) :
    ∃ k, start ≤ k ∧ k ≤ start + taken.length ∧ base ++ toString k ∉ taken := by
  by_contra hno
  push Not at hno
  let names := (List.range' start (taken.length + 1)).map fun k => base ++ toString k
  have hnodup : names.Nodup :=
    (List.nodup_range' 1).map fun _ _ h => append_toString_inj.1 h
  have hsub : names ⊆ taken := by
    intro name hname
    obtain ⟨k, hk, rfl⟩ := List.mem_map.1 hname
    rw [List.mem_range'_1] at hk
    exact hno k hk.1 (by omega)
  have hlen := (List.subperm_of_subset hnodup hsub).length_le
  simp only [names, List.length_map, List.length_range'] at hlen
  omega

/-- The search stops at the first free number, or at the end of its range. -/
theorem searchSuffix_spec (base : String) (taken : List String) (tests n : Nat) :
    ∃ k, n ≤ k ∧ k ≤ n + tests ∧ searchSuffix base taken tests n = base ++ toString k ∧
      (∀ j, n ≤ j → j < k → base ++ toString j ∈ taken) ∧
      (k < n + tests → base ++ toString k ∉ taken) := by
  induction tests generalizing n with
  | zero => exact ⟨n, le_rfl, le_rfl, rfl, fun j h h' => by omega, fun h => by omega⟩
  | succ tests ih =>
    by_cases hn : base ++ toString n ∈ taken
    · obtain ⟨k, hk, hle, heq, hbelow, hfree⟩ := ih (n + 1)
      refine ⟨k, by omega, by omega, ?_, ?_, fun h => hfree (by omega)⟩
      · rw [searchSuffix, if_pos (List.contains_iff_mem.2 hn), heq]
      · intro j hj hjk
        by_cases hjn : j = n
        · rw [hjn]; exact hn
        · exact hbelow j (by omega) hjk
    · have hstop : searchSuffix base taken (tests + 1) n = base ++ toString n := by
        rw [searchSuffix, if_neg (mt List.contains_iff_mem.1 hn)]
      exact ⟨n, le_rfl, by omega, hstop, fun j h h' => by omega, fun _ => hn⟩

/-- **The smallest free number.** The result is free, and every smaller number is taken. -/
theorem withFreeSuffix_isFreeSuffix (base : String) (start : Nat) (taken : List String) :
    IsFreeSuffix base start taken (withFreeSuffix base start taken) := by
  obtain ⟨k, hk, hle, heq, hbelow, hfree⟩ := searchSuffix_spec base taken taken.length start
  rw [withFreeSuffix, heq]
  refine ⟨k, hk, rfl, ?_, hbelow⟩
  obtain ⟨m, hm, hm', hmfree⟩ := exists_free base start taken
  rcases Nat.lt_or_ge k (start + taken.length) with hlt | hge
  · exact hfree hlt
  · -- the free number `m` of the range is not below `k`, so it is `k`
    have hkm : k ≤ m := by
      by_contra hmk
      exact hmfree (hbelow m hm (by omega))
    have : m = k := by omega
    rw [← this]
    exact hmfree

/-! ### Choosing a name -/

/-- `name` is chosen in place of `plain`: it is `plain` itself if that is not taken, and otherwise
`base` with the smallest number from `start` on that gives a name not to be avoided. -/
def IsChosen (plain base : String) (start : Nat) (taken avoided : List String) (name : String) :
    Prop :=
  (plain ∉ taken ∧ name = plain) ∨ (plain ∈ taken ∧ IsFreeSuffix base start avoided name)

theorem isChosen_freeName (plain base : String) (start : Nat) (taken : List String) :
    IsChosen plain base start taken taken (freeName plain base start taken) := by
  by_cases h : plain ∈ taken
  · refine Or.inr ⟨h, ?_⟩
    simpa [freeName, h] using withFreeSuffix_isFreeSuffix base start taken
  · exact Or.inl ⟨h, by simp [freeName, h]⟩

theorem freeName_isFirstFree (candidate : String) (taken : List String) :
    IsFirstFree candidate taken (freeName candidate candidate 2 taken) :=
  isChosen_freeName candidate candidate 2 taken

theorem IsFreeSuffix.congr {base name : String} {start : Nat} {taken taken' : List String}
    (hmem : ∀ x, x ∈ taken ↔ x ∈ taken') (h : IsFreeSuffix base start taken name) :
    IsFreeSuffix base start taken' name := by
  obtain ⟨k, hk, heq, hfree, hbelow⟩ := h
  exact ⟨k, hk, heq, mt (hmem name).2 hfree, fun j hj hjk => (hmem _).1 (hbelow j hj hjk)⟩

namespace IsChosen

variable {plain base name : String} {start : Nat} {taken taken' avoided avoided' : List String}

theorem congr (htaken : ∀ x, x ∈ taken ↔ x ∈ taken') (havoided : ∀ x, x ∈ avoided ↔ x ∈ avoided')
    (h : IsChosen plain base start taken avoided name) :
    IsChosen plain base start taken' avoided' name := by
  obtain ⟨hfree, rfl⟩ | ⟨hmem, hsuffix⟩ := h
  · exact Or.inl ⟨mt (htaken _).2 hfree, rfl⟩
  · exact Or.inr ⟨(htaken _).1 hmem, hsuffix.congr havoided⟩

theorem not_mem (h : IsChosen plain base start taken avoided name) (hsub : taken ⊆ avoided) :
    name ∉ taken := by
  obtain ⟨hfree, rfl⟩ | ⟨-, k, -, -, hfree, -⟩ := h
  · exact hfree
  · exact mt (@hsub name) hfree

theorem eq_plain_iff (h : IsChosen plain plain start taken avoided name) :
    name = plain ↔ plain ∉ taken := by
  obtain ⟨hfree, rfl⟩ | ⟨hmem, k, -, rfl, -, -⟩ := h
  · simp [hfree]
  · simp [hmem]

theorem isFreeSuffix (h : IsChosen plain base start taken avoided name) (hne : name ≠ plain) :
    IsFreeSuffix base start avoided name := by
  obtain ⟨-, rfl⟩ | ⟨-, hsuffix⟩ := h
  · exact absurd rfl hne
  · exact hsuffix

end IsChosen

theorem IsFirstFree.not_mem {candidate name : String} {taken : List String}
    (h : IsFirstFree candidate taken name) : name ∉ taken :=
  IsChosen.not_mem h (List.Subset.refl taken)

/-- Names of which each differs from those before it and from some others differ from each other
and from those others. -/
theorem nodup_of_not_mem_take {names others : List String}
    (h : ∀ i name, names[i]? = some name → name ∉ names.take i ++ others) :
    names.Nodup ∧ ∀ name ∈ names, name ∉ others := by
  constructor
  · rw [List.Nodup, List.pairwise_iff_getElem]
    intro i j hi hj hij heq
    refine h j names[j] (List.getElem?_eq_getElem hj) (List.mem_append_left _ ?_)
    rw [← heq, List.mem_take_iff_getElem]
    exact ⟨i, by omega, rfl⟩
  · intro name hname
    obtain ⟨i, hi⟩ := List.getElem?_of_mem hname
    exact fun hother => h i name hi (List.mem_append_right _ hother)

end Identifier

end ContractGen
