import ContractGen.Proofs.FreeSuffix
import ContractGen.Proofs.References
import ContractGen.Resolver

/-!
# How a resolver gives names

Every operation of a resolver changes its names in one way only: it gives further nodes a name,
one after the other, each the first free one for some candidate. `Resolver.Grows P` says this, with
`P` the candidates that may be used for each node. What holds of a resolver for good is derived
from it once: a name that was given stays (`Grows.nameOf`), and the names stay apart from each other
and from the reserved ones (`Sound.of_grows`).
-/

namespace ContractGen

open Schema (Graph Node NodeId)
open Identifier (IsFirstFree)

namespace Resolver

variable {g : Graph} {r r₁ r' : Resolver} {id : NodeId} {P : NodeId → String → Prop}

/-! ### One name -/

/-- The identifier for a node in a place with a hint: that of the name the node declares, or else
that of the hint. -/
def candidate? (g : Graph) (id : NodeId) (hint : Option String) : Option String :=
  (((g.node? id).bind Node.declaredName).toList ++ hint.toList).findSome? Identifier.typeName?

theorem exists_text_of_candidate {hint : Option String} {c : String}
    (h : candidate? g id hint = some c) : ∃ text, Identifier.typeName? text = some c := by
  obtain ⟨text, -, htext⟩ := List.exists_of_findSome?_eq_some h
  exact ⟨text, htext⟩

theorem nameOf_of_names_eq (h : r'.names = r.names) (id : NodeId) : r'.nameOf id = r.nameOf id := by
  rw [nameOf, h, nameOf]

theorem nameOf_of_names_cons {name : String} (h : r'.names = (id, name) :: r.names) (i : NodeId) :
    r'.nameOf i = if i = id then some name else r.nameOf i := by
  rw [nameOf, h, List.lookup_cons, nameOf]
  by_cases hi : i = id
  · simp [hi]
  · have hi' : (i == id) = false := by simpa using hi
    simp [hi, hi']

theorem name?_of_named {name : String} (h : r.nameOf id = some name) (hint : String) :
    r.name? id hint = some (name, r) := by
  simp [name?, h]

theorem name?_of_unnamed (h : r.nameOf id = none) (hint : String) :
    r.name? id hint = (Identifier.typeName? hint).map fun c =>
      (Identifier.freeName c c 2 r.taken, r.assign id (Identifier.freeName c c 2 r.taken)) := by
  simp [name?, h]

/-- What resolving a node can do: find its name, give it the first free name of its candidate, or
fail and change nothing. -/
theorem resolve_cases (r : Resolver) (g : Graph) (id : NodeId) (hint : Option String) :
    (∃ name, r.nameOf (g.dereference id) = some name ∧ r.resolve g id hint = .ok (name, r)) ∨
    (r.nameOf (g.dereference id) = none ∧ ∃ c name, candidate? g (g.dereference id) hint = some c ∧
      IsFirstFree c r.taken name ∧
      r.resolve g id hint = .ok (name, r.assign (g.dereference id) name)) ∨
    (r.nameOf (g.dereference id) = none ∧ candidate? g (g.dereference id) hint = none ∧
      r.resolve g id hint = .error ⟨g.dereference id, hint, .unnamed⟩) := by
  cases hname : r.nameOf (g.dereference id) with
  | some name => exact Or.inl ⟨name, rfl, by simp [resolve, hname]⟩
  | none =>
    have hfind : (((g.node? (g.dereference id)).bind Node.declaredName).toList ++
        hint.toList).findSome? (r.name? (g.dereference id)) =
        (candidate? g (g.dereference id) hint).map fun c =>
          (Identifier.freeName c c 2 r.taken,
            r.assign (g.dereference id) (Identifier.freeName c c 2 r.taken)) := by
      rw [candidate?, List.map_findSome?]
      exact congrArg (List.findSome? · _) (funext (name?_of_unnamed hname))
    cases hc : candidate? g (g.dereference id) hint with
    | some c =>
      refine Or.inr (Or.inl ⟨rfl, c, _, rfl, Identifier.freeName_isFirstFree c r.taken, ?_⟩)
      simp [resolve, hname, hfind, hc]
    | none => exact Or.inr (Or.inr ⟨rfl, rfl, by simp [resolve, hname, hfind, hc]⟩)

theorem resolve_of_named {name : String} (h : r.nameOf (g.dereference id) = some name)
    (hint : Option String) : r.resolve g id hint = .ok (name, r) := by
  simp [resolve, h]

/-! ### Growth -/

/-- `r'` comes from `r` by giving names to nodes that had none, one after the other: each is the
first free one for a candidate that `P` allows for the node. -/
inductive Grows (P : NodeId → String → Prop) (r : Resolver) : Resolver → Prop where
  /-- No name is given. -/
  | same {r' : Resolver} : r'.names = r.names → r'.taken = r.taken → Grows P r r'
  /-- One more name is given. -/
  | give {r₁ r' : Resolver} {id : NodeId} {c name : String} : Grows P r r₁ →
      r₁.nameOf id = none → P id c → IsFirstFree c r₁.taken name →
      r'.names = (id, name) :: r₁.names → r'.taken = name :: r₁.taken → Grows P r r'

namespace Grows

theorem refl (P : NodeId → String → Prop) (r : Resolver) : Grows P r r := .same rfl rfl

theorem assign {c name : String} (hid : r.nameOf id = none) (hc : P id c)
    (hname : IsFirstFree c r.taken name) : Grows P r (r.assign id name) :=
  .give (refl P r) hid hc hname rfl rfl

theorem mono {Q : NodeId → String → Prop} (hPQ : ∀ i c, P i c → Q i c) (h : Grows P r r') :
    Grows Q r r' := by
  induction h with
  | same hn ht => exact .same hn ht
  | give _ hid hc hname hn ht ih => exact .give ih hid (hPQ _ _ hc) hname hn ht

theorem trans (h : Grows P r r₁) (h' : Grows P r₁ r') : Grows P r r' := by
  induction h' with
  | same hn ht =>
    cases h with
    | same hn' ht' => exact .same (hn.trans hn') (ht.trans ht')
    | give h hid hc hname hn' ht' => exact .give h hid hc hname (hn.trans hn') (ht.trans ht')
  | give _ hid hc hname hn ht ih => exact .give ih hid hc hname hn ht

/-- **Names stay.** -/
theorem nameOf (h : Grows P r r') {name : String} (hi : r.nameOf id = some name) :
    r'.nameOf id = some name := by
  induction h with
  | same hn _ => rw [nameOf_of_names_eq hn, hi]
  | give _ hid _ _ hn _ ih =>
    rw [nameOf_of_names_cons hn]
    split_ifs with heq
    · rw [heq, hid] at ih; cases ih
    · exact ih

theorem unnamed (h : Grows P r r') (hi : r'.nameOf id = none) : r.nameOf id = none := by
  cases hr : r.nameOf id with
  | none => rfl
  | some name => rw [h.nameOf hr] at hi; cases hi

/-- A new name goes back to an allowed candidate. -/
theorem old_or_allowed (h : Grows P r r') {name : String} (hi : r'.nameOf id = some name) :
    r.nameOf id = some name ∨ r.nameOf id = none ∧ ∃ c, P id c := by
  induction h with
  | same hn _ => rw [nameOf_of_names_eq hn] at hi; exact Or.inl hi
  | give hr hid hc _ hn _ ih =>
    rw [nameOf_of_names_cons hn] at hi
    split_ifs at hi with heq
    · subst heq; exact Or.inr ⟨hr.unnamed hid, _, hc⟩
    · exact ih hi

/-- What holds of the old names and of first free ones holds of all names. -/
theorem forall_nameOf {Q : String → Prop} (h : Grows P r r')
    (hnew : ∀ i c taken name, P i c → IsFirstFree c taken name → Q name)
    (hold : ∀ i name, r.nameOf i = some name → Q name) :
    ∀ i name, r'.nameOf i = some name → Q name := by
  induction h with
  | same hn _ => simpa only [nameOf_of_names_eq hn] using hold
  | give _ _ hc hname hn _ ih =>
    intro i n hi
    rw [nameOf_of_names_cons hn] at hi
    split_ifs at hi with heq
    · obtain rfl := by simpa using hi
      exact hnew _ _ _ _ hc hname
    · exact ih i n hi

/-- The names given on the way, the last one first, with what was taken before each. -/
theorem exists_added (h : Grows P r r') :
    ∃ added : List (NodeId × String), r'.names = added ++ r.names ∧
      r'.taken = added.map Prod.snd ++ r.taken ∧
      ∀ later i name earlier, added = later ++ (i, name) :: earlier → r.nameOf i = none ∧
        ∃ c, P i c ∧ IsFirstFree c (earlier.map Prod.snd ++ r.taken) name := by
  induction h with
  | same hn ht => exact ⟨[], hn, ht, by simp⟩
  | @give r₁ r' id c name hr hid hc hname hn ht ih =>
    obtain ⟨added, hnames, htaken, hadded⟩ := ih
    refine ⟨(id, name) :: added, by rw [hn, hnames, List.cons_append],
      by rw [ht, htaken, List.map_cons, List.cons_append], ?_⟩
    intro later i name' earlier heq
    cases later with
    | nil =>
      obtain ⟨⟨rfl, rfl⟩, rfl⟩ := by simpa using heq
      exact ⟨hr.unnamed hid, c, hc, htaken ▸ hname⟩
    | cons entry later =>
      obtain ⟨-, heq⟩ := by simpa using heq
      exact hadded later i name' earlier heq

end Grows

/-- Resolving a node gives it the first free name of its candidate, if it has none yet. -/
theorem resolve_grows {hint : Option String} {name : String}
    (h : r.resolve g id hint = .ok (name, r')) :
    r'.nameOf (g.dereference id) = some name ∧
      Grows (fun i c => i = g.dereference id ∧ candidate? g i hint = some c) r r' := by
  obtain ⟨n, hn, heq⟩ | ⟨hnone, c, n, hc, hfree, heq⟩ | ⟨-, -, heq⟩ := resolve_cases r g id hint
  · rw [heq] at h
    obtain ⟨rfl, rfl⟩ : n = name ∧ r = r' := by simpa using h
    exact ⟨hn, .refl _ r⟩
  · rw [heq] at h
    obtain ⟨rfl, rfl⟩ : n = name ∧ r.assign (g.dereference id) n = r' := by simpa using h
    refine ⟨?_, .assign hnone ⟨rfl, hc⟩ hfree⟩
    rw [nameOf_of_names_cons rfl, if_pos rfl]
  · rw [heq] at h; cases h

theorem resolve_unchanged {hint : Option String} {name : String}
    (h : r.resolve g id hint = .ok (name, r')) :
    r'.features = r.features ∧ r'.pending = r.pending := by
  obtain ⟨n, -, heq⟩ | ⟨-, c, n, -, -, heq⟩ | ⟨-, -, heq⟩ := resolve_cases r g id hint
  · rw [heq] at h
    obtain ⟨-, rfl⟩ : n = name ∧ r = r' := by simpa using h
    exact ⟨rfl, rfl⟩
  · rw [heq] at h
    obtain ⟨-, rfl⟩ : n = name ∧ r.assign (g.dereference id) n = r' := by simpa using h
    exact ⟨rfl, rfl⟩
  · rw [heq] at h; cases h

/-! ### Names apart -/

/-- No two nodes have the same name, none has a reserved one, and what is in use is just the
reserved names and the names of nodes. -/
structure Sound (r : Resolver) : Prop where
  /-- Different nodes have different names. -/
  injective : ∀ i j name, r.nameOf i = some name → r.nameOf j = some name → i = j
  /-- No node has a reserved name. -/
  not_reserved : ∀ i name, r.nameOf i = some name → name ∉ Support.reserved
  /-- The names in use. -/
  mem_taken : ∀ name, name ∈ r.taken ↔ name ∈ Support.reserved ∨ ∃ i, r.nameOf i = some name

namespace Sound

theorem empty : Sound {} := by
  constructor <;> simp [Resolver.nameOf]

theorem of_names_eq (h : Sound r) (hn : r'.names = r.names) (ht : r'.taken = r.taken) :
    Sound r' := by
  obtain ⟨hinj, hres, htaken⟩ := h
  constructor
  · simpa only [nameOf_of_names_eq hn] using hinj
  · simpa only [nameOf_of_names_eq hn] using hres
  · simpa only [nameOf_of_names_eq hn, ht] using htaken

theorem of_names_cons {name : String} (h : Sound r) (hid : r.nameOf id = none)
    (hfree : name ∉ r.taken) (hn : r'.names = (id, name) :: r.names)
    (ht : r'.taken = name :: r.taken) : Sound r' := by
  -- the new name is neither that of another node nor reserved, for both are taken
  have hother : ∀ i, r.nameOf i ≠ some name :=
    fun i hi => hfree ((h.mem_taken name).2 (.inr ⟨i, hi⟩))
  constructor
  · intro i j n hi hj
    rw [nameOf_of_names_cons hn] at hi hj
    split_ifs at hi hj with hi' hj' hj'
    · rw [hi', hj']
    · obtain rfl : name = n := by simpa using hi
      exact absurd hj (hother j)
    · obtain rfl : name = n := by simpa using hj
      exact absurd hi (hother i)
    · exact h.injective i j n hi hj
  · intro i n hi
    rw [nameOf_of_names_cons hn] at hi
    split_ifs at hi with hi'
    · obtain rfl : name = n := by simpa using hi
      exact fun hres => hfree ((h.mem_taken name).2 (.inl hres))
    · exact h.not_reserved i n hi
  · intro n
    simp only [ht, List.mem_cons, h.mem_taken n, nameOf_of_names_cons hn]
    constructor
    · rintro (rfl | hres | ⟨i, hi⟩)
      · exact .inr ⟨id, by simp⟩
      · exact .inl hres
      · refine .inr ⟨i, ?_⟩
        rw [if_neg (fun heq => by rw [heq, hid] at hi; cases hi), hi]
    · rintro (hres | ⟨i, hi⟩)
      · exact .inr (.inl hres)
      · split_ifs at hi with hi'
        · exact .inl (by simpa using hi.symm)
        · exact .inr (.inr ⟨i, hi⟩)

/-- **Names stay apart** however a resolver grows. -/
theorem of_grows (h : Sound r) (hg : Grows P r r') : Sound r' := by
  induction hg with
  | same hn ht => exact h.of_names_eq hn ht
  | give _ hid _ hname hn ht ih => exact ih.of_names_cons hid hname.not_mem hn ht

end Sound

end Resolver

end ContractGen
