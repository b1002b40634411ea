import ContractGen.Proofs.Building
import ContractGen.Proofs.Spelling

/-!
# Calls that fail and calls that are repeated

A resolver can be read as one record that is changed in place. `resolveInPlace` is `resolve` in that
reading, and `resolveInPlace_eq` says that the two do the same: a node that gets no name leaves the
record as it was. So does a reference that is not rendered, and one that is rendered adds only names
of nodes that are declared as types and the arities of its unions (`changes_of_calls`).

A reference that is rendered a second time comes out as before. What makes this true is that hints
are either absent all the way down, or give an identifier at every nested place
(`candidate?_itemHint`, `candidate?_of_leads`). So a node that gets no name at some place of a
reference gets none at a later place of it (`Follows`) and fails again, and nothing changes but that
the faults of cases are noted again (`typeRef_again`).
-/

namespace ContractGen

open Schema (Graph Node NodeId)

namespace Resolver

variable {g : Graph} {r r' s : Resolver} {id : NodeId} {hint : Option String}

/-! ### Names in place -/

/-- Name a node from a hint, in place. -/
def nameInPlace (id : NodeId) (hint : String) : StateM Resolver (Option String) := do
  match (← get).nameOf id with
  | some name => return some name
  | none =>
    match Identifier.typeName? hint with
    | none => return none
    | some candidate =>
      let name := Identifier.freeName candidate candidate 2 (← get).taken
      modify fun r => { r with taken := name :: r.taken }
      modify fun r => { r with names := (id, name) :: r.names }
      return some name

/-- Name a node from the first of some hints that gives a name, in place. -/
def firstNameInPlace (id : NodeId) : List String → StateM Resolver (Option String)
  | [] => return none
  | hint :: rest => do
    match ← nameInPlace id hint with
    | some name => return some name
    | none => firstNameInPlace id rest

/-- Name the node that `id` stands for, in place. -/
def resolveInPlace (g : Graph) (id : NodeId) (hint : Option String) :
    StateM Resolver (Except Fault String) := do
  let target := g.dereference id
  match (← get).nameOf target with
  | some name => return .ok name
  | none =>
    let declared := (g.node? target).bind Node.declaredName
    match ← firstNameInPlace target (declared.toList ++ hint.toList) with
    | some name => return .ok name
    | none => return .error ⟨target, hint, .unnamed⟩

theorem nameInPlace_eq (r : Resolver) (id : NodeId) (hint : String) :
    (nameInPlace id hint).run r =
      ((r.name? id hint).map Prod.fst, ((r.name? id hint).map Prod.snd).getD r) := by
  cases hid : r.nameOf id with
  | some name => simp [nameInPlace, name?, hid]; rfl
  | none =>
    cases hc : Identifier.typeName? hint <;> simp [nameInPlace, name?, hid, hc, assign] <;> rfl

/-- Hints that give no name leave no trace before the one that does. -/
theorem firstNameInPlace_eq (r : Resolver) (id : NodeId) (hints : List String) :
    (firstNameInPlace id hints).run r =
      ((hints.findSome? (r.name? id)).map Prod.fst,
        ((hints.findSome? (r.name? id)).map Prod.snd).getD r) := by
  induction hints with
  | nil => rfl
  | cons hint rest ih =>
    rw [firstNameInPlace, StateT.run_bind, nameInPlace_eq, List.findSome?_cons]
    cases r.name? id hint with
    | none => exact ih
    | some named => rfl

/-- **Naming in place** does what `resolve` says. -/
theorem resolveInPlace_eq (g : Graph) (r : Resolver) (id : NodeId) (hint : Option String) :
    (resolveInPlace g id hint).run r =
      match r.resolve g id hint with
      | .ok (name, r') => (.ok name, r')
      | .error fault => (.error fault, r) := by
  cases hname : r.nameOf (g.dereference id) with
  | some name => simp [resolveInPlace, resolve, hname]; rfl
  | none =>
    simp only [resolveInPlace, resolve, StateT.run_bind, StateT.run_get, pure_bind, hname,
      firstNameInPlace_eq]
    cases (((g.node? (g.dereference id)).bind Node.declaredName).toList ++
        hint.toList).findSome? (r.name? (g.dereference id)) with
    | none => rfl
    | some named => rfl

/-! ### What calls change -/

theorem Offers.isNominal {i : NodeId} {c : String} (h : Offers g r id hint i c) :
    g.IsNominal i := by
  obtain ⟨-, node, -, hnode, hnominal, -⟩ := h
  exact ⟨node, hnode, hnominal⟩

/-- **What calls of a resolver change.** A node that gets no name leaves the resolver as it was,
when it is named in place, and so does a reference that is not rendered, whatever was rendered
within it before. A reference that is rendered adds names, each to a node that had none and that is
an object, an enumeration, or a union that declares a name. It adds to the features the arities of
the unions declared in place in it, and nothing else. -/
theorem changes_of_calls (g : Graph) (r : Resolver) (id : NodeId) (hint : Option String) :
    (∀ fault r', (resolveInPlace g id hint).run r = (.error fault, r') ↔
      r.resolve g id hint = .error fault ∧ r' = r) ∧
    (∀ fault r', r.typeRef g id hint = some (r', .error fault) → r' = r) ∧
    ∀ t r', r.typeRef g id hint = some (r', .ok t) →
      (∃ added : List (NodeId × String), r'.names = added ++ r.names ∧
        r'.taken = added.map Prod.snd ++ r.taken ∧
        ∀ i name, (i, name) ∈ added → r.nameOf i = none ∧ g.IsNominal i) ∧
      r'.features.inheritance = r.features.inheritance ∧
      r'.features.dateFormat = r.features.dateFormat ∧
      (∀ n, n ∈ r'.features.valueUnions ↔ n ∈ r.features.valueUnions ∨ n ∈ t.arities) ∧
      ∀ n, n ∈ r'.features.abstractUnions ↔ n ∈ r.features.abstractUnions ∨ n ∈ t.arities := by
  refine ⟨fun fault r' => ?_, fun fault r' h => (descend_rendered h).unchanged fault rfl,
    fun t r' h => ?_⟩
  · rw [resolveInPlace_eq]
    cases r.resolve g id hint with
    | ok named =>
      constructor
      · intro h; cases h
      · rintro ⟨h, -⟩; cases h
    | error fault' =>
      constructor
      · intro h; cases h; exact ⟨rfl, rfl⟩
      · rintro ⟨h, rfl⟩; cases h; rfl
  · have hrendered := descend_rendered h
    obtain ⟨added, hnames, htaken, hadded⟩ := hrendered.grows.exists_added
    have hadds := Features.adds_foldl_withInlineUnion r.features t.arities
    have hfeatures : r'.features = t.arities.foldl Features.withInlineUnion r.features :=
      hrendered.features
    rw [← hfeatures] at hadds
    refine ⟨⟨added, hnames, htaken, fun i name hi => ?_⟩, by simpa using hadds.inheritance,
      by simpa using hadds.dateFormat, hadds.valueUnions, by simpa using hadds.abstractUnions⟩
    obtain ⟨later, earlier, hsplit⟩ := List.append_of_mem hi
    obtain ⟨hnone, c, hoffer, -⟩ := hadded later i name earlier hsplit
    exact ⟨hnone, hoffer.isNominal⟩

/-- A union of an object without a name, an array of such objects, a union of nothing, and a
person. -/
def mixture : Graph where
  root := 0
  nodes := #[
    Node.ofKind (.union [1, 2, 3, 4]), Node.ofKind (.object ⟨[], none, false, none⟩),
    Node.ofKind (.array 1), Node.ofKind (.union []),
    { Node.ofKind (.object ⟨[], none, false, none⟩) with nameHint := some "person" }]

/-- Without a hint the array cannot be rendered, and nothing is left of the attempt; the union can,
and its arity is recorded. -/
theorem changes_of_calls_mixture :
    (∃ fault, ({} : Resolver).typeRef mixture 2 none = some ({}, .error fault)) ∧
    ∃ t r, ({} : Resolver).typeRef mixture 0 none = some (r, .ok t) ∧ t.arities = [4] ∧
      ∀ n, n ∈ r.features.valueUnions ↔ n = 4 := by
  have hfails : (({} : Resolver).typeRef mixture 2 none).map (fun p => p.2.toOption.isNone) =
      some true := by
    decide +kernel
  have harities : (({} : Resolver).typeRef mixture 0 none).map
      (fun p => p.2.toOption.map TypeRef.arities) = some (some [4]) := by
    decide +kernel
  obtain ⟨⟨r, out⟩, hrun, hout⟩ := Option.map_eq_some_iff.1 hfails
  obtain ⟨⟨r', out'⟩, hrun', hout'⟩ := Option.map_eq_some_iff.1 harities
  refine ⟨?_, ?_⟩
  · cases out with
    | ok t => cases hout
    | error fault =>
      obtain rfl := (changes_of_calls mixture {} 2 none).2.1 fault r hrun
      exact ⟨fault, hrun⟩
  · cases out' with
    | error fault => cases hout'
    | ok t =>
      have ht : t.arities = [4] := by simpa [Except.toOption] using hout'
      obtain ⟨-, -, -, hvalue, -⟩ := (changes_of_calls mixture {} 0 none).2.2 t r' hrun'
      exact ⟨t, r', hrun', ht, fun n => by simpa [ht] using hvalue n⟩

/-! ### Hints of nested places -/

theorem candidate?_isSome_of_hint {text : String}
    (h : ∃ name, Identifier.typeName? text = some name) (g : Graph) (i : NodeId) :
    (candidate? g i (some text)).isSome = true := by
  obtain ⟨name, hname⟩ := h
  refine List.findSome?_isSome_iff.2 ⟨text, by simp, ?_⟩
  rw [hname, Option.isSome_some]

/-- The hint for a case gives every node a candidate, unless it is absent. -/
theorem candidate?_caseHint (g : Graph) (i : NodeId) (text : String) (index : Nat) :
    (candidate? g i (caseHint (some text) index)).isSome = true := by
  have hword : (s!"Case{index + 1}").toList =
      'C' :: 'a' :: 's' :: 'e' :: (toString (index + 1)).toList := by
    rw [show s!"Case{index + 1}" = "Case" ++ toString (index + 1) from rfl, String.toList_append]
    rfl
  exact candidate?_isSome_of_hint
    (Identifier.exists_typeName_append text hword (by decide +kernel)) g i

/-- A node with a candidate in the place of an array has one in the place of its items. -/
theorem candidate?_itemHint {i : NodeId} (h : (candidate? g i hint).isSome = true) :
    (candidate? g i (itemHint hint)).isSome = true := by
  cases hint with
  | none => exact h
  | some text =>
    exact candidate?_isSome_of_hint
      (Identifier.exists_typeName_append text rfl (by decide +kernel)) g i

theorem candidate?_caseHint_of {i : NodeId} (h : (candidate? g i hint).isSome = true)
    (index : Nat) : (candidate? g i (caseHint hint index)).isSome = true := by
  cases hint with
  | none => exact h
  | some text => exact candidate?_caseHint g i text index

theorem Leads.hint_eq_none {i : NodeId} {h : Option String} (hl : Leads g r id hint i h)
    (hnone : hint = none) : h = none := by
  induction hl with
  | here => exact hnone
  | item _ _ _ ih => exact ih (by rw [hnone]; rfl)
  | case _ _ _ _ _ ih => exact ih (by rw [hnone]; rfl)

/-- A node with a candidate somewhere below one case has one in the place of any case. -/
theorem candidate?_of_leads {i : NodeId} {h : Option String} {k : Nat}
    (hl : Leads g r id (caseHint hint k) i h) (hc : (candidate? g i h).isSome = true)
    (index : Nat) : (candidate? g i (caseHint hint index)).isSome = true := by
  cases hint with
  | none =>
    obtain rfl := hl.hint_eq_none rfl
    exact hc
  | some text => exact candidate?_caseHint g i text index

/-! ### The second call -/

/-- `s` has the names of `r`, and the nodes that it names besides are declared as types and have a
candidate in a place with the hint. -/
structure Follows (g : Graph) (hint : Option String) (r s : Resolver) : Prop where
  /-- Names stay. -/
  nameOf : ∀ i name, r.nameOf i = some name → s.nameOf i = some name
  /-- Other nodes with names could have been named in that place. -/
  fresh : ∀ i, r.nameOf i = none → s.nameOf i ≠ none →
    g.IsNominal i ∧ (candidate? g i hint).isSome = true

/-- The resolver with further faults and arities. -/
def noting (r : Resolver) (faults : List Fault) (arities : List Nat) : Resolver :=
  { r with
    pending := r.pending ++ faults
    features := arities.foldl Features.withInlineUnion r.features }

@[simp] theorem noting_nil (r : Resolver) : r.noting [] [] = r := by
  simp [noting]

@[simp] theorem noting_noting (r : Resolver) (faults faults' : List Fault)
    (arities arities' : List Nat) :
    (r.noting faults arities).noting faults' arities' =
      r.noting (faults ++ faults') (arities ++ arities') := by
  simp [noting]

/-- The fault of a reference that is not rendered. -/
def faultOf : Except Fault TypeRef → List Fault
  | .ok _ => []
  | .error fault => [fault]

theorem settleCase_eq_noting (r : Resolver) (out : Except Fault TypeRef) :
    r.settleCase out = (r.noting (faultOf out) [], settled out) := by
  cases out with
  | ok t => simp [settleCase, faultOf, settled]
  | error fault => rfl

namespace Follows

theorem refl (g : Graph) (hint : Option String) (r : Resolver) : Follows g hint r r :=
  ⟨fun _ _ h => h, fun _ hnone hsome => absurd hnone hsome⟩

theorem mono {hint' : Option String} (h : Follows g hint r s)
    (hhint : ∀ i, (candidate? g i hint).isSome = true → (candidate? g i hint').isSome = true) :
    Follows g hint' r s :=
  ⟨h.nameOf, fun i hnone hsome => (h.fresh i hnone hsome).imp_right (hhint i)⟩

theorem of_grows {P : NodeId → String → Prop} (h : Follows g hint r' s) (hg : Grows P r r')
    (hP : ∀ i c, P i c → g.IsNominal i ∧ (candidate? g i hint).isSome = true) :
    Follows g hint r s := by
  refine ⟨fun i name hi => h.nameOf i name (hg.nameOf hi), fun i hnone hsome => ?_⟩
  cases hi : r'.nameOf i with
  | none => exact h.fresh i hi hsome
  | some name =>
    obtain hold | ⟨-, c, hc⟩ := hg.old_or_allowed hi
    · rw [hnone] at hold; cases hold
    · exact hP i c hc

end Follows

/-- What the second call does if the first one gave `out`: the same faults of cases are noted, and
the arities in the reference, on whatever resolver follows that of the first call. -/
def Repeats (g : Graph) (depth : Nat) (r : Resolver) (id : NodeId) (hint : Option String)
    (r' : Resolver) (out : Except Fault TypeRef) : Prop :=
  ∃ faults, r'.pending = r.pending ++ faults ∧ ∀ s, Follows g hint r' s →
    descend g depth s id hint = some (s.noting faults (settled out).arities, out)

theorem Repeats.quiet {depth : Nat} {out : Except Fault TypeRef}
    (hpending : r'.pending = r.pending) (harities : (settled out).arities = [])
    (h : ∀ s, Follows g hint r' s → descend g depth s id hint = some (s, out)) :
    Repeats g depth r id hint r' out :=
  ⟨[], by rw [hpending, List.append_nil], fun s hs => by rw [harities, noting_nil, h s hs]⟩

theorem namedRef_again {isValue : Bool} {out : Except Fault TypeRef}
    (h : r.namedRef g id hint isValue = (r', out)) :
    r'.pending = r.pending ∧ (settled out).arities = [] ∧
      ∀ s, Follows g hint r' s → s.namedRef g id hint isValue = (s, out) := by
  obtain ⟨name, hok, rfl⟩ | ⟨fault, herr, rfl, rfl⟩ := namedRef_cases h
  · refine ⟨(resolve_unchanged hok).2, rfl, fun s hs => ?_⟩
    have hname := hs.nameOf _ _ (resolve_grows hok).1
    rw [namedRef, resolve_of_named hname]
  · refine ⟨rfl, rfl, fun s hs => ?_⟩
    obtain ⟨_, -, heq⟩ | ⟨-, _, _, -, -, heq⟩ | ⟨hnone, hc, heq⟩ := resolve_cases r' g id hint
    · rw [heq] at herr; cases herr
    · rw [heq] at herr; cases herr
    -- no resolver that follows has a name for a node without a candidate
    have hunnamed : s.nameOf (g.dereference id) = none := by
      by_contra hsome
      have hcandidate := (hs.fresh _ hnone hsome).2
      rw [hc] at hcandidate
      cases hcandidate
    have hagain : s.resolve g id hint = .error fault := by
      obtain ⟨_, hname, -⟩ | ⟨-, _, _, hc', -⟩ | ⟨-, -, heq'⟩ := resolve_cases s g id hint
      · rw [hunnamed] at hname; cases hname
      · rw [hc] at hc'; cases hc'
      · rw [heq', ← heq, herr]
    rw [namedRef, hagain]

/-- A union is declared in place still if it was, for then it is given no name. -/
theorem Follows.isInline_eq {node : Node} {variants : List NodeId} {i : NodeId}
    (hs : Follows g hint r' s) (hg : Grows (Offers g r id hint) r r')
    (hnode : g.node? i = some node) (hkind : node.kind = .union variants) :
    s.isInline i node = r.isInline i node := by
  rw [Bool.eq_iff_iff]
  simp only [isInline, Bool.and_eq_true, Option.isNone_iff_eq_none]
  refine and_congr_right fun hdeclared => ⟨fun hnone => ?_, fun hnone => ?_⟩
  · cases hi : r'.nameOf i with
    | none => exact hg.unnamed hi
    | some name => rw [hs.nameOf i name hi] at hnone; cases hnone
  · have hnominal : ¬ g.IsNominal i := by
      rintro ⟨node', hnode', hnominal⟩
      obtain rfl : node = node' := by simpa [hnode] using hnode'
      simp [Node.isNominal, hkind, hdeclared] at hnominal
    by_contra hsome
    cases hi : r'.nameOf i with
    | none => exact hnominal (hs.fresh i hi hsome).1
    | some name =>
      obtain hold | ⟨-, c, hoffer⟩ := hg.old_or_allowed hi
      · rw [hnone] at hold; cases hold
      · exact hnominal hoffer.isNominal

/-- The cases of a union are rendered again as they were, if each case is. The hint of one case
does for all of them. -/
theorem caseRefs_again {depth index : Nat} {variants : List NodeId} {cases : List TypeRef}
    (ih : ∀ r id hint r' out, descend g depth r id hint = some (r', out) →
      Repeats g depth r id hint r' out)
    (h : caseRefs (descend g depth) hint index r variants = some (r', cases)) :
    ∃ faults, r'.pending = r.pending ++ faults ∧
      ∀ s, (∀ k, Follows g (caseHint hint k) r' s) →
        caseRefs (descend g depth) hint index s variants =
          some (s.noting faults (TypeRef.aritiesAll cases), cases) := by
  induction variants generalizing index r cases with
  | nil =>
    obtain ⟨rfl, rfl⟩ : r = r' ∧ [] = cases := by simpa [caseRefs] using h
    exact ⟨[], by simp, fun s _ => by simp [caseRefs, TypeRef.aritiesAll]⟩
  | cons variant rest ihrest =>
    simp only [caseRefs, settleCase_eq_noting, Option.bind_eq_bind, Option.bind_eq_some_iff,
      Prod.exists] at h
    obtain ⟨r₁, out, hfirst, r₂, ts, hrest, heq⟩ := h
    obtain ⟨rfl, rfl⟩ : r₂ = r' ∧ settled out :: ts = cases := by simpa using heq
    obtain ⟨faults₁, hpending₁, hagain₁⟩ := ih _ _ _ _ _ hfirst
    obtain ⟨faults₂, hpending₂, hagain₂⟩ := ihrest hrest
    refine ⟨faults₁ ++ faultOf out ++ faults₂, ?_, fun s hs => ?_⟩
    · rw [hpending₂, noting, hpending₁]
      simp only [List.append_assoc]
    · -- what the later cases name could have been named in the place of this one
      have hfollows : Follows g (caseHint hint index) r₁ s := by
        have hgrows := (hs index).of_grows (caseRefs_rendered hrest).grows ?_
        · exact ⟨hgrows.nameOf, hgrows.fresh⟩
        · rintro i c ⟨k, v, -, hoffer⟩
          refine ⟨hoffer.isNominal, ?_⟩
          obtain ⟨h', node, hlead, -, -, hc⟩ := hoffer
          exact candidate?_of_leads hlead (by rw [hc]; rfl) index
      have hrest' := hagain₂ ((s.noting faults₁ (settled out).arities).noting (faultOf out) [])
        fun k => ⟨(hs k).nameOf, (hs k).fresh⟩
      simp only [noting_noting, List.append_nil] at hrest'
      simp only [caseRefs, settleCase_eq_noting, hagain₁ s hfollows, Option.bind_eq_bind,
        Option.bind_some, noting_noting, List.append_nil, hrest', TypeRef.aritiesAll]
      rfl

/-- **A descent that is repeated** from where it ended, or from any resolver that follows. -/
theorem descend_again {depth : Nat} {out : Except Fault TypeRef}
    (h : descend g depth r id hint = some (r', out)) : Repeats g depth r id hint r' out := by
  induction depth generalizing r id hint r' out with
  | zero => simp [descend] at h
  | succ depth ih =>
    have hgrows := (descend_rendered h).grows
    simp only [descend] at h
    cases hnode : g.node? (g.dereference id) with
    | none =>
      obtain ⟨rfl, rfl⟩ : r = r' ∧ _ = out := by simpa [hnode] using h
      exact .quiet rfl rfl fun s _ => by simp [descend, hnode]
    | some node =>
      simp only [hnode] at h
      cases hkind : node.kind with
      | primitive type format =>
        obtain ⟨rfl, rfl⟩ : r = r' ∧ _ = out := by simpa [hkind] using h
        exact .quiet rfl rfl fun s _ => by simp [descend, hnode, hkind]
      | reference target =>
        obtain ⟨rfl, rfl⟩ : r = r' ∧ _ = out := by simpa [hkind] using h
        exact .quiet rfl rfl fun s _ => by simp [descend, hnode, hkind]
      | object shape =>
        obtain ⟨hpending, harities, hagain⟩ := namedRef_again (by simpa [hkind] using h)
        exact .quiet hpending harities fun s hs => by simp [descend, hnode, hkind, hagain s hs]
      | enumeration values =>
        obtain ⟨hpending, harities, hagain⟩ := namedRef_again (by simpa [hkind] using h)
        exact .quiet hpending harities fun s hs => by simp [descend, hnode, hkind, hagain s hs]
      | array items =>
        simp only [hkind, Option.bind_eq_bind, Option.bind_eq_some_iff, Prod.exists] at h
        obtain ⟨r₁, item, hitem, heq⟩ := h
        obtain ⟨rfl, rfl⟩ : r₁ = r' ∧ _ = out := by simpa using heq
        obtain ⟨faults, hpending, hagain⟩ := ih hitem
        have harities : (settled (item.map .collection)).arities = (settled item).arities := by
          cases item <;> simp [settled, Except.map, TypeRef.arities]
        refine ⟨faults, hpending, fun s hs => ?_⟩
        have hitem' := hagain s (hs.mono fun i => candidate?_itemHint)
        simp [descend, hnode, hkind, hitem', harities]
      | union variants =>
        simp only [hkind] at h
        by_cases hempty : variants = []
        · subst hempty
          obtain ⟨rfl, rfl⟩ : r = r' ∧ _ = out := by simpa using h
          exact .quiet rfl rfl fun s _ => by simp [descend, hnode, hkind]
        have hsize : variants.isEmpty = false := by simpa using hempty
        simp only [hsize, Bool.false_eq_true, ↓reduceIte] at h
        by_cases hinline : r.isInline (g.dereference id) node = true
        · simp only [hinline, ↓reduceIte, Option.bind_eq_bind, Option.bind_eq_some_iff,
            Prod.exists] at h
          obtain ⟨r₁, cases, hrun, heq⟩ := h
          obtain ⟨rfl, rfl⟩ : _ = r' ∧ _ = out := by simpa using heq
          obtain ⟨faults, hpending, hagain⟩ := caseRefs_again (fun _ _ _ _ _ h => ih h) hrun
          refine ⟨faults, hpending, fun s hs => ?_⟩
          have hinline' := (hs.isInline_eq hgrows hnode hkind).trans hinline
          have hrun' := hagain s fun k =>
            Follows.mono ⟨hs.nameOf, hs.fresh⟩ fun i hc => candidate?_caseHint_of hc k
          simp [descend, hnode, hkind, hsize, hinline', hrun', settled, TypeRef.arities, noting,
            (caseRefs_rendered hrun).length]
        · rw [if_neg hinline] at h
          obtain ⟨hpending, harities, hagain⟩ := namedRef_again (by simpa using h)
          refine .quiet hpending harities fun s hs => ?_
          have hinline' : ¬ s.isInline (g.dereference id) node = true := by
            rwa [hs.isInline_eq hgrows hnode hkind]
          simp [descend, hnode, hkind, hsize, hinline', hagain s hs]

/-- **A reference that is rendered twice** comes out the same, or fails with the same fault. The
second call changes no name and no feature; it notes the faults of cases that the first call noted,
once more. -/
theorem typeRef_again (g : Graph) (r : Resolver) (id : NodeId) (hint : Option String)
    (r' : Resolver) (out : Except Fault TypeRef) (h : r.typeRef g id hint = some (r', out)) :
    ∃ faults, r'.pending = r.pending ++ faults ∧
      r'.typeRef g id hint = some ({ r' with pending := r'.pending ++ faults }, out) := by
  obtain ⟨faults, hpending, hagain⟩ := descend_again h
  have hfeatures : (settled out).arities.foldl Features.withInlineUnion r'.features =
      r'.features := by
    rw [(descend_rendered h).features, Features.foldl_withInlineUnion_self]
  refine ⟨faults, hpending, ?_⟩
  rw [typeRef, hagain r' (.refl g hint r'), noting, hfeatures]

/-- Without a hint three of the cases fail, in the second call as in the first. -/
theorem typeRef_again_mixture :
    ∃ r out, ({} : Resolver).typeRef mixture 0 none = some (r, out) ∧
      r.names = [(4, "Person")] ∧
      r.pending.map Fault.kind = [.unnamed, .unnamed, .emptyUnion] ∧
      r.typeRef mixture 0 none = some ({ r with pending := r.pending ++ r.pending }, out) := by
  have hfirst : (({} : Resolver).typeRef mixture 0 none).map
      (fun p => (p.1.names, p.1.pending.map Fault.kind)) =
        some ([(4, "Person")], [.unnamed, .unnamed, .emptyUnion]) := by
    decide +kernel
  obtain ⟨⟨r, out⟩, hrun, hr⟩ := Option.map_eq_some_iff.1 hfirst
  obtain ⟨hnames, hkinds⟩ : r.names = [(4, "Person")] ∧
      r.pending.map Fault.kind = [.unnamed, .unnamed, .emptyUnion] := by simpa using hr
  obtain ⟨faults, hpending, hagain⟩ := typeRef_again mixture {} 0 none r out hrun
  obtain rfl : r.pending = faults := by simpa using hpending
  exact ⟨r, out, hrun, hnames, hkinds, hagain⟩

end Resolver

end ContractGen
