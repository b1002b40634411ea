import ContractGen.Proofs.Descent

/-!
# Runs of a resolver

An `Operation` is one call of a resolver: a name, a resolved node, a rendered reference, or the
faults. Operations may come in any order, with any nodes and hints, on any graph. Each of them
changes names by growth only (`Operation.apply_grows`), so what holds of the first resolver and is
kept by growth holds after every run. `names_of_run` puts together what this says about names.
-/

namespace ContractGen

open Schema (Graph Node NodeId)
open Identifier (IsFirstFree)

namespace Resolver

/-- An operation of a resolver. -/
inductive Operation where
  /-- Name a node from a hint. -/
  | name (id : NodeId) (hint : String)
  /-- Name the node that `id` stands for. -/
  | resolve (id : NodeId) (hint : Option String)
  /-- Render a reference to the node that `id` stands for. -/
  | typeRef (id : NodeId) (hint : Option String)
  /-- Take the pending faults. -/
  | takeFaults
deriving DecidableEq, Repr

namespace Operation

/-- The resolver after an operation; there is none if the operation does not end. -/
def apply (g : Graph) (r : Resolver) : Operation → Option Resolver
  | .name id hint => some (((r.name? id hint).map Prod.snd).getD r)
  | .resolve id hint =>
    match r.resolve g id hint with
    | .ok (_, r') => some r'
    | .error _ => some r
  | .typeRef id hint => (r.typeRef g id hint).map Prod.fst
  | .takeFaults => some r.takeFaults.2

/-- The resolver after a row of operations. -/
def run (g : Graph) (r : Resolver) (ops : List Operation) : Option Resolver :=
  ops.foldlM (apply g) r

/-- The candidates that an operation may use for each node. -/
def Suggests (g : Graph) (r : Resolver) : Operation → NodeId → String → Prop
  | .name id hint, i, c => i = id ∧ Identifier.typeName? hint = some c
  | .resolve id hint, i, c => i = g.dereference id ∧ candidate? g i hint = some c
  | .typeRef id hint, i, c => Offers g r id hint i c
  | .takeFaults, _, _ => False

variable {g : Graph} {r r' : Resolver}

theorem name_grows (id : NodeId) (hint : String) :
    Grows (Suggests g r (.name id hint)) r (((r.name? id hint).map Prod.snd).getD r) := by
  cases hid : r.nameOf id with
  | some name => rw [name?_of_named hid]; exact .refl _ r
  | none =>
    rw [name?_of_unnamed hid]
    cases hc : Identifier.typeName? hint with
    | none => exact .refl _ r
    | some c => exact .assign hid ⟨rfl, hc⟩ (Identifier.freeName_isFirstFree c r.taken)

/-- **One operation changes names by growth only.** -/
theorem apply_grows {op : Operation} (h : op.apply g r = some r') :
    Grows (op.Suggests g r) r r' := by
  cases op with
  | name id hint =>
    obtain rfl := by simpa [apply] using h
    exact name_grows id hint
  | resolve id hint =>
    simp only [apply] at h
    split at h
    · rename_i name r₁ hok
      obtain rfl : r₁ = r' := by simpa using h
      exact (resolve_grows hok).2
    · obtain rfl : r = r' := by simpa using h
      exact .refl _ r
  | typeRef id hint =>
    obtain ⟨⟨r₁, out⟩, hout, rfl⟩ := by simpa only [apply, Option.map_eq_some_iff] using h
    exact (descend_rendered hout).grows
  | takeFaults =>
    obtain rfl := by simpa [apply] using h
    exact .same rfl rfl

theorem Suggests.exists_text {op : Operation} {i : NodeId} {c : String}
    (h : op.Suggests g r i c) : ∃ text, Identifier.typeName? text = some c := by
  cases op with
  | name id hint => exact ⟨hint, h.2⟩
  | resolve id hint => exact exists_text_of_candidate h.2
  | typeRef id hint =>
    obtain ⟨_, _, -, -, -, hc⟩ := h
    exact exists_text_of_candidate hc
  | takeFaults => exact h.elim

/-- **A run changes names by growth only**, with candidates that are spelled from texts. -/
theorem run_grows {ops : List Operation} (h : run g r ops = some r') :
    Grows (fun _ c => ∃ text, Identifier.typeName? text = some c) r r' := by
  induction ops generalizing r with
  | nil =>
    obtain rfl : r = r' := by simpa [run] using h
    exact .refl _ r
  | cons op ops ih =>
    simp only [run, List.foldlM_cons, Option.bind_eq_bind, Option.bind_eq_some_iff] at h
    obtain ⟨r₁, hfirst, hrest⟩ := h
    exact ((apply_grows hfirst).mono fun _ _ => Suggests.exists_text).trans (ih hrest)

end Operation

open Operation in
/-- **The names of a resolver after any run.** Different nodes have different names, and none has
a reserved one; the names in use are the reserved ones and those of nodes. A name stays whatever is
done later, and whatever stands for the node is resolved to it. A further operation gives each new
name as the first free one for a candidate of the operation. -/
theorem names_of_run (g : Graph) (ops : List Operation) (r : Resolver)
    (h : run g {} ops = some r) :
    (∀ i j name, r.nameOf i = some name → r.nameOf j = some name → i = j) ∧
    (∀ i name, r.nameOf i = some name → name ∉ Support.reserved) ∧
    (∀ name, name ∈ r.taken ↔ name ∈ Support.reserved ∨ ∃ i, r.nameOf i = some name) ∧
    (∀ i name, r.nameOf i = some name → ∀ more r', run g r more = some r' →
      r'.nameOf i = some name ∧
      ∀ j, g.StandsFor j i → ∀ hint, r'.resolve g j hint = .ok (name, r')) ∧
    ∀ op r', apply g r op = some r' → ∃ added : List (NodeId × String),
      r'.names = added ++ r.names ∧ r'.taken = added.map Prod.snd ++ r.taken ∧
      ∀ later i name earlier, added = later ++ (i, name) :: earlier → r.nameOf i = none ∧
        ∃ c, op.Suggests g r i c ∧ IsFirstFree c (earlier.map Prod.snd ++ r.taken) name := by
  have hsound : Sound r := Sound.empty.of_grows (run_grows h)
  refine ⟨hsound.injective, hsound.not_reserved, hsound.mem_taken, ?_, ?_⟩
  · intro i name hi more r' hmore
    have hi' := (run_grows hmore).nameOf hi
    refine ⟨hi', fun j hj hint => resolve_of_named ?_ hint⟩
    rw [hj.dereference_eq, hi']
  · intro op r' hop
    exact (apply_grows hop).exists_added

/-- Two objects of the same name, and a reference to the second. -/
def twoPersons : Graph where
  root := 0
  nodes := #[
    { Node.ofKind (.object ⟨[], none, false, none⟩) with nameHint := some "person" },
    { Node.ofKind (.object ⟨[], none, false, none⟩) with nameHint := some "person" },
    Node.ofKind (.reference 1), Node.ofKind (.union [0, 2])]

open Operation in
/-- A run that meets the second person first, through a reference in a union, keeps the names
apart for good: the first person gets a number. -/
theorem names_of_run_twoPersons :
    ∃ r, run twoPersons {} [.resolve 2 none, .typeRef 3 (some "pet"), .takeFaults] = some r ∧
      r.nameOf 0 = some "Person2" ∧ (∀ j, r.nameOf j = some "Person2" → j = 0) ∧
      ∀ more r', run twoPersons r more = some r' →
        ∀ hint, r'.resolve twoPersons 2 hint = .ok ("Person", r') := by
  have hnames : (run twoPersons {} [.resolve 2 none, .typeRef 3 (some "pet"), .takeFaults]).map
      (fun r => (r.nameOf 0, r.nameOf 1)) = some (some "Person2", some "Person") := by
    decide +kernel
  obtain ⟨r, hr, hnames⟩ := Option.map_eq_some_iff.1 hnames
  obtain ⟨h0, h1⟩ : r.nameOf 0 = some "Person2" ∧ r.nameOf 1 = some "Person" := by
    simpa using hnames
  obtain ⟨hinj, -, -, hlater, -⟩ := names_of_run _ _ r hr
  refine ⟨r, hr, h0, fun j hj => hinj j 0 _ hj h0, fun more r' hmore hint => ?_⟩
  exact (hlater 1 _ h1 more r' hmore).2 2 ⟨.single rfl, rfl⟩ hint

end Resolver

end ContractGen
