import ContractGen.Proofs.FreeSuffix
import ContractGen.Proofs.Needs

/-!
# Names of members apart

The members of a class get their names one after the other. What a name becomes depends on three
things: the class, the names given before it, and all names that were declared, also those that are
still to come. `isChosen_distinctAfter` says for every position what is chosen there, and everything
else follows from it.

* The names differ from each other and from the class (`distinctAfter_apart`).
* A number is added only if it leads to no declared name. So whoever declares a name first finds it
  free, although others were renamed before (`not_mem_take_of_first`).
* Names that differ from each other and from the class stay as they are
  (`distinctAfter_of_nodup`), and so a second run changes nothing.

`members_apart` puts this together for members.
-/

namespace ContractGen

namespace Contract

open Identifier (IsChosen IsFreeSuffix)

/-! ### Names -/

theorem isChosen_settled (owner name : String) (declared used : List String) :
    IsChosen name name 1 (owner :: used) (owner :: used ++ declared)
      (if name = owner || used.contains name then
        Identifier.withFreeSuffix name 1 (owner :: used ++ declared) else name) := by
  by_cases htaken : name ∈ owner :: used
  · have htest : (name = owner || used.contains name) = true := by simpa using htaken
    rw [if_pos htest]
    exact Or.inr ⟨htaken, Identifier.withFreeSuffix_isFreeSuffix name 1 _⟩
  · have htest : ¬ (name = owner || used.contains name) = true := by simpa using htaken
    rw [if_neg htest]
    exact Or.inl ⟨htaken, rfl⟩

/-- What happens at each position: the name is kept if it is neither the class nor given before,
and otherwise gets the smallest number that leads to none of these and to no declared name. -/
theorem isChosen_distinctAfter {owner : String} {declared used names : List String} {i : Nat}
    {name settled : String} (hname : names[i]? = some name)
    (hsettled : (distinctAfter owner declared used names)[i]? = some settled) :
    IsChosen name name 1 ((distinctAfter owner declared used names).take i ++ owner :: used)
      ((distinctAfter owner declared used names).take i ++ owner :: used ++ declared) settled := by
  induction names generalizing used i with
  | nil => simp at hname
  | cons first rest ih =>
    cases i with
    | zero =>
      obtain rfl : first = name := by simpa using hname
      obtain rfl := by simpa only [distinctAfter, List.getElem?_cons_zero, Option.some.injEq]
        using hsettled
      exact isChosen_settled owner first declared used
    | succ i =>
      simp only [distinctAfter, List.getElem?_cons_succ, List.take_succ_cons] at hname hsettled ⊢
      -- the name that was settled first has moved from those before to those used
      refine (ih hname hsettled).congr (fun x => ?_) fun x => ?_
      · simp only [List.mem_append, List.mem_cons]; tauto
      · simp only [List.mem_append, List.mem_cons]; tauto

theorem distinctAfter_apart (owner : String) (declared used names : List String) :
    (distinctAfter owner declared used names).Nodup ∧
      ∀ name ∈ distinctAfter owner declared used names, name ∉ owner :: used := by
  refine Identifier.nodup_of_not_mem_take fun i settled hsettled => ?_
  have hi : i < names.length := by
    rw [← length_distinctAfter owner declared used names]
    exact (List.getElem?_eq_some_iff.1 hsettled).1
  have hchosen := isChosen_distinctAfter (List.getElem?_eq_getElem hi) hsettled
  exact hchosen.not_mem (List.subset_append_left _ _)

/-- Whoever declares a name first finds it free. -/
theorem not_mem_take_of_first {owner : String} {names : List String} {i : Nat} {name : String}
    (hname : names[i]? = some name) (hfirst : name ∉ names.take i) :
    name ∉ (distinctNames owner names).take i := by
  intro hmem
  obtain ⟨j, hj, hsettled⟩ := List.mem_take_iff_getElem.1 hmem
  have hsettled : (distinctNames owner names)[j]? = some name :=
    List.getElem?_eq_some_iff.2 ⟨by omega, hsettled⟩
  have hjlen : j < names.length := by
    rw [← length_distinctAfter owner names [] names]
    exact (List.getElem?_eq_some_iff.1 hsettled).1
  have hchosen := isChosen_distinctAfter (List.getElem?_eq_getElem hjlen) hsettled
  by_cases hkept : name = names[j]
  · -- an earlier member that kept the name declared it before
    rw [hkept] at hfirst
    exact hfirst (List.mem_take_iff_getElem.2 ⟨j, by omega, rfl⟩)
  · -- an earlier member that was renamed got no declared name
    obtain ⟨k, -, -, hfree, -⟩ := hchosen.isFreeSuffix hkept
    exact hfree (List.mem_append_right _ (List.mem_of_getElem? hname))

theorem distinctAfter_of_nodup {owner : String} {declared used names : List String}
    (hnodup : names.Nodup) (hfree : ∀ name ∈ names, name ∉ owner :: used) :
    distinctAfter owner declared used names = names := by
  induction names generalizing used with
  | nil => rfl
  | cons first rest ih =>
    obtain ⟨hfirst, hrest⟩ := List.nodup_cons.1 hnodup
    have htest : (first = owner || used.contains first) = false := by
      simpa using hfree first List.mem_cons_self
    simp only [distinctAfter, htest, Bool.false_eq_true, ↓reduceIte]
    rw [ih hrest fun name hname => ?_]
    have hother := hfree name (List.mem_cons_of_mem _ hname)
    have hne : name ≠ first := fun heq => hfirst (heq ▸ hname)
    simp only [List.mem_cons, not_or] at hother ⊢
    exact ⟨hother.1, hne, hother.2⟩

/-! ### Members -/

theorem length_distinctMembers (owner : String) (members : List Member) :
    (distinctMembers owner members).length = members.length := by
  simpa using congrArg List.length (types_distinctMembers owner members)

theorem map_name_distinctMembers (owner : String) (members : List Member) :
    (distinctMembers owner members).map Member.name =
      distinctNames owner (members.map Member.name) := by
  have hlen : (distinctNames owner (members.map Member.name)).length ≤ members.length := by
    rw [distinctNames, length_distinctAfter, List.length_map]
  rw [distinctMembers, List.map_zipWith, ← List.map_uncurry_zip_eq_zipWith]
  exact List.map_snd_zip hlen

theorem eq_of_getElem?_distinctMembers {owner : String} {members : List Member} {i : Nat}
    {m m' : Member} (hm : members[i]? = some m)
    (hm' : (distinctMembers owner members)[i]? = some m') : m' = { m with name := m'.name } := by
  obtain ⟨m₀, name, hm₀, -, rfl⟩ := List.getElem?_zipWith_eq_some.1 hm'
  rw [hm] at hm₀
  obtain rfl : m = m₀ := by simpa using hm₀
  rfl

theorem distinctMembers_of_names_eq {owner : String} {members : List Member}
    (h : distinctNames owner (members.map Member.name) = members.map Member.name) :
    distinctMembers owner members = members := by
  rw [distinctMembers, h, List.zipWith_map_right, List.zipWith_self]
  exact List.map_id members

/-- **Members with names apart.** There are as many as before, in the same order, and they change
in nothing but their names. The names differ from each other and from the class. A member keeps its
name just if that is neither the class nor the name of a member before it; in particular whoever
declares a name first keeps it, unless it is that of the class. A member that is renamed gets the
smallest number from one on after its name that leads to none of these and to no declared name.
To do all this again changes nothing. -/
theorem members_apart (owner : String) (members : List Member) :
    (distinctMembers owner members).length = members.length ∧
    ((distinctMembers owner members).map Member.name).Nodup ∧
    owner ∉ (distinctMembers owner members).map Member.name ∧
    (∀ i m m', members[i]? = some m → (distinctMembers owner members)[i]? = some m' →
      m' = { m with name := m'.name } ∧
      (m'.name = m.name ↔
        m.name ≠ owner ∧ m.name ∉ ((distinctMembers owner members).take i).map Member.name) ∧
      (m.name ≠ owner → m.name ∉ (members.take i).map Member.name → m'.name = m.name) ∧
      (m'.name ≠ m.name → IsFreeSuffix m.name 1
        (owner :: members.map Member.name ++
          ((distinctMembers owner members).take i).map Member.name) m'.name)) ∧
    distinctMembers owner (distinctMembers owner members) = distinctMembers owner members := by
  have hnames : distinctAfter owner (members.map Member.name) [] (members.map Member.name) =
      (distinctMembers owner members).map Member.name :=
    (map_name_distinctMembers owner members).symm
  obtain ⟨hnodup, hfree⟩ := hnames ▸ distinctAfter_apart owner (members.map Member.name) []
    (members.map Member.name)
  have howner : owner ∉ (distinctMembers owner members).map Member.name :=
    fun hmem => hfree owner hmem List.mem_cons_self
  refine ⟨length_distinctMembers owner members, hnodup, howner, fun i m m' hm hm' => ?_, ?_⟩
  · have hname : (members.map Member.name)[i]? = some m.name := by simp [hm]
    have hsettled : ((distinctMembers owner members).map Member.name)[i]? = some m'.name := by
      simp [hm']
    have hchosen := hnames ▸ isChosen_distinctAfter hname (hnames ▸ hsettled)
    have hkept : m'.name = m.name ↔
        m.name ≠ owner ∧ m.name ∉ ((distinctMembers owner members).take i).map Member.name := by
      rw [hchosen.eq_plain_iff]
      simp only [List.map_take, List.mem_append, List.mem_cons, List.not_mem_nil, or_false]
      tauto
    refine ⟨eq_of_getElem?_distinctMembers hm hm', hkept, fun hne hfirst => ?_, fun hne => ?_⟩
    · have hlate : m.name ∉ (distinctNames owner (members.map Member.name)).take i :=
        not_mem_take_of_first hname (by rwa [← List.map_take])
      rw [← map_name_distinctMembers, ← List.map_take] at hlate
      exact hkept.2 ⟨hne, hlate⟩
    · refine (hchosen.isFreeSuffix hne).congr fun x => ?_
      simp only [List.map_take, List.mem_append, List.mem_cons, List.not_mem_nil, or_false]
      tauto
  · have hsame : distinctNames owner ((distinctMembers owner members).map Member.name) =
        (distinctMembers owner members).map Member.name :=
      distinctAfter_of_nodup hnodup fun name hname => hfree name hname
    exact distinctMembers_of_names_eq hsame

/-- Names that look as if they had a number already, and one that stands for two members. -/
example :
    distinctNames "Person" ["Person", "Person1", "Name", "Person2", "Name", "Name1", "Person"] =
      ["Person3", "Person1", "Name", "Person2", "Name2", "Name1", "Person4"] := by decide +kernel

end Contract

end ContractGen
