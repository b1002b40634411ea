import ContractGen.Proofs.Acyclic
import ContractGen.Proofs.Coverage
import ContractGen.Proofs.Verdict
import Mathlib.Algebra.BigOperators.Fin
import Mathlib.Algebra.Order.BigOperators.Group.Finset

/-!
# Descents and walks end

A descent into a reference is bounded by the number of nodes, and a walk by the number of pointers.
Neither bound cuts anything off. A descent that comes to a circle has no answer however deep it may
go, and any other ends within the bound (`Resolver.typeRef_isSome_iff`), so a larger bound changes
nothing (`Resolver.descend_eq_typeRef`). Every visit takes a task off the list, and lists at most
what its node points at, once; so what is left to do (`Walk.load`) shrinks with every visit, and the
bound of a walk is large enough (`Walk.proceed_eq_of_load_le`). A plan is missing only if some array
or union without a declared name contains itself (`Plan.ofGraph_isSome`). `rendering_ends_iff` puts
this together.
-/

namespace ContractGen

open Schema (Graph Node NodeId Kind)

namespace Schema.Graph

variable {g : Graph}

/-- No array and no union without a declared name contains itself through such nodes only. -/
def IsGrounded (g : Graph) : Prop :=
  ∀ i, ¬ Relation.TransGen (Resolver.Opens g {}) i i

/-- Where arrays and unions without a declared name point only at later nodes, they contain each
other in no circle. -/
theorem isGrounded_of_lt
    (h : ∀ i < g.size, ¬ g.IsNominal i → ∀ j ∈ g.edges i, i < j) : g.IsGrounded := by
  have hstep : ∀ i j, Resolver.Opens g {} i j → i < j := by
    intro i j hopens
    have hi : i < g.size := by
      cases hopens with
      | item hnode _ => exact lt_size_of_node? hnode
      | case hnode _ _ _ => exact lt_size_of_node? hnode
    exact h i hi hopens.not_isNominal j hopens.mem_edges
  have hpath : ∀ i j, Relation.TransGen (Resolver.Opens g {}) i j → i < j := by
    intro i j hij
    induction hij with
    | single hopens => exact hstep _ _ hopens
    | tail _ hopens ih => exact ih.trans (hstep _ _ hopens)
  exact fun i hi => lt_irrefl i (hpath i i hi)

end Schema.Graph

namespace Resolver

variable {g : Graph} {r r' : Resolver} {id : NodeId} {hint : Option String} {depth : Nat}
  {variants : List NodeId}

/-! ### One level of a descent -/

theorem not_opens {node : Node} (hnode : g.node? id = some node)
    (harray : ∀ items, node.kind ≠ .array items)
    (hunion : ∀ variants, node.kind = .union variants → variants = [] ∨
      r.isInline id node = false) (i : NodeId) : ¬ Opens g r id i := by
  intro hopens
  obtain ⟨items, hkind, -⟩ | ⟨variants, hkind, hinline, variant, hmem, -⟩ := hopens.inv hnode
  · exact harray _ hkind
  · rcases hunion _ hkind with rfl | hno
    · cases hmem
    · rw [hno] at hinline; cases hinline

/-- What a descent does first: go into the items of an array, or into the cases of a union that is
declared in place; or it gives an answer at once, at any depth. -/
theorem descend_cases (g : Graph) (r : Resolver) (id : NodeId) (hint : Option String) :
    (∃ node items, g.node? (g.dereference id) = some node ∧ node.kind = .array items ∧
      ∀ depth, descend g (depth + 1) r id hint =
        (descend g depth r items (itemHint hint)).map fun x => (x.1, x.2.map .collection)) ∨
    (∃ node variants, g.node? (g.dereference id) = some node ∧ node.kind = .union variants ∧
      r.isInline (g.dereference id) node = true ∧
      ∀ depth, descend g (depth + 1) r id hint =
        (caseRefs (descend g depth) hint 0 r variants).map fun x =>
          ({ x.1 with features := x.1.features.withInlineUnion variants.length },
            .ok (.oneOf x.2))) ∨
    (∀ i, ¬ Opens g r (g.dereference id) i) ∧
      ∃ x, ∀ depth, descend g (depth + 1) r id hint = some x := by
  cases hnode : g.node? (g.dereference id) with
  | none =>
    refine .inr (.inr ⟨fun i hopens => ?_, (r, .error ⟨g.dereference id, hint, .unnamed⟩),
      fun depth => by simp only [descend, hnode]⟩)
    cases hopens <;> simp_all
  | some node =>
    cases hkind : node.kind with
    | array items =>
      refine .inl ⟨node, items, rfl, hkind, fun depth => ?_⟩
      simp only [descend, hnode, hkind]
      cases descend g depth r items (itemHint hint) <;> rfl
    | union variants =>
      by_cases hempty : variants = []
      · refine .inr (.inr ⟨not_opens hnode (by simp [hkind]) ?_,
          (r, .error ⟨g.dereference id, hint, .emptyUnion⟩), fun depth => ?_⟩)
        · intro vs hvs
          obtain rfl : variants = vs := by simpa [hkind] using hvs
          exact .inl hempty
        · simp only [descend, hnode, hkind, hempty, List.isEmpty_nil, ↓reduceIte]
      · have hsize : variants.isEmpty = false := by simpa using hempty
        cases hinline : r.isInline (g.dereference id) node with
        | true =>
          refine .inr (.inl ⟨node, variants, rfl, hkind, hinline, fun depth => ?_⟩)
          simp only [descend, hnode, hkind, hsize, hinline, Bool.false_eq_true, ↓reduceIte]
          cases caseRefs (descend g depth) hint 0 r variants <;> rfl
        | false =>
          refine .inr (.inr ⟨not_opens hnode (by simp [hkind]) (fun _ _ => .inr hinline),
            r.namedRef g (g.dereference id) hint false, fun depth => ?_⟩)
          simp only [descend, hnode, hkind, hsize, hinline, Bool.false_eq_true, ↓reduceIte]
    | object shape =>
      exact .inr (.inr ⟨not_opens hnode (by simp [hkind]) (by simp [hkind]),
        r.namedRef g (g.dereference id) hint false,
        fun depth => by simp only [descend, hnode, hkind]⟩)
    | enumeration values =>
      exact .inr (.inr ⟨not_opens hnode (by simp [hkind]) (by simp [hkind]),
        r.namedRef g (g.dereference id) hint true,
        fun depth => by simp only [descend, hnode, hkind]⟩)
    | primitive type format =>
      exact .inr (.inr ⟨not_opens hnode (by simp [hkind]) (by simp [hkind]),
        (r, .ok (.builtin type format)), fun depth => by simp only [descend, hnode, hkind]⟩)
    | reference target =>
      exact .inr (.inr ⟨not_opens hnode (by simp [hkind]) (by simp [hkind]),
        (r, .ok .unknown), fun depth => by simp only [descend, hnode, hkind]⟩)

/-! ### More depth -/

theorem caseRefs_mono {render render' : Resolver → NodeId → Option String →
      Option (Resolver × Except Fault TypeRef)}
    (h : ∀ r id hint x, render r id hint = some x → render' r id hint = some x) {index : Nat}
    {x : Resolver × List TypeRef} (hx : caseRefs render hint index r variants = some x) :
    caseRefs render' hint index r variants = some x := by
  induction variants generalizing index r x with
  | nil => exact hx
  | cons variant rest ih =>
    simp only [caseRefs, Option.bind_eq_bind, Option.bind_eq_some_iff, Prod.exists] at hx ⊢
    obtain ⟨r₁, out, hfirst, r₂, ts, hrest, heq⟩ := hx
    exact ⟨r₁, out, h _ _ _ _ hfirst, r₂, ts, ih hrest, heq⟩

/-- **More depth keeps an answer.** -/
theorem descend_mono {x : Resolver × Except Fault TypeRef}
    (h : descend g depth r id hint = some x) (more : Nat) :
    descend g (depth + more) r id hint = some x := by
  induction depth generalizing r id hint x with
  | zero => simp [descend] at h
  | succ depth ih =>
    have hdepth : depth + 1 + more = depth + more + 1 := by omega
    rw [hdepth]
    obtain ⟨node, items, -, -, heq⟩ | ⟨node, variants, -, -, -, heq⟩ | ⟨-, y, heq⟩ :=
      descend_cases g r id hint
    · rw [heq, Option.map_eq_some_iff] at h ⊢
      obtain ⟨y, hy, hx⟩ := h
      exact ⟨y, ih hy, hx⟩
    · rw [heq, Option.map_eq_some_iff] at h ⊢
      obtain ⟨y, hy, hx⟩ := h
      exact ⟨y, caseRefs_mono (fun _ _ _ _ => ih) hy, hx⟩
    · rw [heq] at h ⊢
      exact h

/-! ### Circles -/

/-- Rendering a case changes nothing about what is passed through: only nodes that are declared
wherever they are mentioned get names. -/
theorem opens_settleCase {variant : NodeId} {out : Except Fault TypeRef}
    (h : descend g depth r variant hint = some (r', out)) :
    Opens g (r'.settleCase out).1 = Opens g r := by
  have hsettle : r'.settleCase out = ((r'.settleCase out).1, (r'.settleCase out).2) := rfl
  obtain ⟨-, hn, ht, -⟩ := settleCase_eq hsettle
  have hgrows : Grows (Offers g r variant hint) r (r'.settleCase out).1 :=
    (descend_rendered h).grows.trans (.same hn ht)
  ext c d
  refine ⟨fun hopens => hopens.of_grows hgrows, fun hopens => ?_⟩
  have hnominal := hopens.not_isNominal
  cases hopens with
  | item hnode hkind => exact .item hnode hkind
  | case hnode hkind hinline hmem =>
    refine .case hnode hkind ?_ hmem
    simp only [isInline, Bool.and_eq_true, Option.isNone_iff_eq_none] at hinline ⊢
    refine ⟨hinline.1, Option.eq_none_iff_forall_ne_some.2 fun name hname => ?_⟩
    rcases hgrows.old_or_allowed hname with hold | ⟨-, _, _, node', -, hnode', hyes, -⟩
    · rw [hinline.2] at hold; cases hold
    · exact hnominal ⟨node', hnode', hyes⟩

theorem caseRefs_isSome
    (h : ∀ r', Opens g r' = Opens g r → ∀ variant ∈ variants, ∀ hint,
      (descend g depth r' variant hint).isSome) (index : Nat) :
    (caseRefs (descend g depth) hint index r variants).isSome := by
  induction variants generalizing index r with
  | nil => rfl
  | cons variant rest ih =>
    obtain ⟨⟨r₁, out⟩, hfirst⟩ := Option.isSome_iff_exists.1 <|
      h r rfl variant List.mem_cons_self (caseHint hint index)
    have hopens := opens_settleCase hfirst
    obtain ⟨⟨r₂, ts⟩, hrest⟩ := Option.isSome_iff_exists.1 <|
      ih (r := (r₁.settleCase out).1)
        (fun r' hr' v hv => h r' (hr'.trans hopens) v (List.mem_cons_of_mem _ hv)) (index + 1)
    simp [caseRefs, hfirst, hrest]

theorem caseRefs_eq_none {variant : NodeId} (hmem : variant ∈ variants)
    (h : ∀ r', Opens g r' = Opens g r → ∀ hint, descend g depth r' variant hint = none)
    (index : Nat) : caseRefs (descend g depth) hint index r variants = none := by
  induction variants generalizing index r with
  | nil => cases hmem
  | cons first rest ih =>
    cases hfirst : descend g depth r first (caseHint hint index) with
    | none => simp [caseRefs, hfirst]
    | some x =>
      obtain ⟨r₁, out⟩ := x
      have hopens := opens_settleCase hfirst
      rcases List.mem_cons.1 hmem with rfl | hmem
      · rw [h r rfl] at hfirst; cases hfirst
      · have hrest := ih hmem (r := (r₁.settleCase out).1)
          (fun r' hr' => h r' (hr'.trans hopens)) (index + 1)
        simp [caseRefs, hfirst, hrest]

/-- **Without a circle a descent ends**, and goes at most one step deeper than there are nodes. -/
theorem typeRef_isSome (h : AcyclicFrom (Opens g r) (g.dereference id)) :
    (r.typeRef g id hint).isSome := by
  refine h.bounded (n := g.size)
    (P := fun steps a => ∀ r' id hint, Opens g r' = Opens g r → g.dereference id = a →
      (descend g (steps + 1) r' id hint).isSome) ?_ ?_ (Nat.le_refl g.size) r id hint rfl rfl
  · rintro steps a hout r' id hint - rfl
    have hnode : g.node? (g.dereference id) = none := by simpa [Graph.node?, Graph.size] using hout
    simp [descend, hnode]
  · rintro steps a - ih r' id hint hr' rfl
    obtain ⟨node, items, hnode, hkind, heq⟩ | ⟨node, variants, hnode, hkind, hinline, heq⟩ |
      ⟨-, x, heq⟩ := descend_cases g r' id hint
    · rw [heq, Option.isSome_map]
      exact ih _ (.item hnode hkind) r' items _ hr' rfl
    · rw [heq, Option.isSome_map]
      refine caseRefs_isSome (fun r'' hr'' variant hmem hint => ?_) 0
      have hopens : Opens g r (g.dereference id) (g.dereference variant) := by
        rw [← hr']
        exact .case hnode hkind hinline hmem
      exact ih _ hopens r'' variant hint (hr''.trans hr') rfl
    · rw [heq]; rfl

/-- **A descent that comes to a circle has no answer**, at any depth. -/
theorem descend_eq_none (h : ¬ AcyclicFrom (Opens g r) (g.dereference id)) (depth : Nat) :
    descend g depth r id hint = none := by
  induction depth generalizing r id hint with
  | zero => rfl
  | succ depth ih =>
    obtain ⟨d, hopens, hrest⟩ := AcyclicFrom.exists_next_of_not h
    obtain ⟨node, items, hnode, hkind, heq⟩ | ⟨node, variants, hnode, hkind, -, heq⟩ |
      ⟨hclosed, -⟩ := descend_cases g r id hint
    · obtain ⟨_, hkind', rfl⟩ | ⟨_, hkind', -⟩ := hopens.inv hnode
      · obtain rfl : items = _ := by simpa [hkind] using hkind'
        rw [heq, ih hrest]
        rfl
      · simp [hkind] at hkind'
    · obtain ⟨_, hkind', -⟩ | ⟨_, hkind', -, variant, hmem, rfl⟩ := hopens.inv hnode
      · simp [hkind] at hkind'
      · obtain rfl : variants = _ := by simpa [hkind] using hkind'
        rw [heq, caseRefs_eq_none hmem (fun r' hr' hint => ih (by rw [hr']; exact hrest)) 0]
        rfl
    · exact absurd hopens (hclosed d)

/-- **A reference can be rendered just if it leads to no circle.** -/
theorem typeRef_isSome_iff :
    (r.typeRef g id hint).isSome ↔ AcyclicFrom (Opens g r) (g.dereference id) := by
  refine ⟨fun h => ?_, typeRef_isSome⟩
  by_contra hcircle
  rw [typeRef, descend_eq_none hcircle] at h
  cases h

/-- **The bound of a descent cuts nothing off.** -/
theorem descend_eq_typeRef (h : g.size < depth) :
    descend g depth r id hint = r.typeRef g id hint := by
  cases hx : r.typeRef g id hint with
  | some x =>
    obtain ⟨more, rfl⟩ : ∃ more, depth = g.size + 1 + more := ⟨depth - (g.size + 1), by omega⟩
    exact descend_mono hx more
  | none =>
    refine descend_eq_none (fun hacyclic => ?_) depth
    have hsome : (r.typeRef g id hint).isSome := typeRef_isSome hacyclic
    rw [hx] at hsome
    cases hsome

/-- Rendering a reference goes `depth` levels deep: so many are enough, and fewer are not. -/
def HasDepth (g : Graph) (r : Resolver) (id : NodeId) (hint : Option String) (depth : Nat) : Prop :=
  (descend g depth r id hint).isSome = true ∧ ∀ less < depth, descend g less r id hint = none

/-- **A descent goes at most one level deeper than there are nodes.** -/
theorem HasDepth.le_size (h : HasDepth g r id hint depth) : depth ≤ g.size + 1 := by
  by_contra hdeep
  have hcut : r.typeRef g id hint = none := h.2 (g.size + 1) (by omega)
  have hends : (descend g depth r id hint).isSome = true := h.1
  rw [descend_eq_typeRef (by omega), hcut] at hends
  cases hends

/-- What is found at the depth of a descent is the reference. -/
theorem HasDepth.descend_eq (h : HasDepth g r id hint depth) :
    descend g depth r id hint = r.typeRef g id hint := by
  obtain ⟨x, hx⟩ := Option.isSome_iff_exists.1 h.1
  obtain ⟨more, hmore⟩ : ∃ more, g.size + 1 = depth + more :=
    ⟨g.size + 1 - depth, by have := h.le_size; omega⟩
  rw [typeRef, hmore, descend_mono hx more, hx]

/-- **A descent has a depth just if it leads to no circle.** -/
theorem exists_hasDepth_iff :
    (∃ depth, HasDepth g r id hint depth) ↔ AcyclicFrom (Opens g r) (g.dereference id) := by
  constructor
  · rintro ⟨depth, hdepth⟩
    have hends : (r.typeRef g id hint).isSome = true := by
      rw [← hdepth.descend_eq]
      exact hdepth.1
    exact typeRef_isSome_iff.1 hends
  · intro hacyclic
    have hends : ∃ depth, (descend g depth r id hint).isSome = true :=
      ⟨g.size + 1, typeRef_isSome hacyclic⟩
    refine ⟨Nat.find hends, Nat.find_spec hends, fun less hless => ?_⟩
    simpa using Nat.find_min hends hless

end Resolver

namespace Walk

variable {g : Graph} {w w' : Walk} {task : Task} {tasks more rest : List Task}

/-! ### Visits end -/

section

variable (hrender : ∀ (r : Resolver) (id : NodeId) (hint : Option String),
  (r.typeRef g id hint).isSome)

include hrender

theorem typeRef_isSome (w : Walk) (id : NodeId) (hint : String) :
    (w.typeRef g id hint).isSome := by
  obtain ⟨⟨r, out⟩, hout⟩ := Option.isSome_iff_exists.1 (hrender w.resolver id (some hint))
  cases out <;> simp [typeRef, hout]

theorem members_isSome (w : Walk) (ps : List Schema.Property) : (w.members g ps).isSome := by
  induction ps generalizing w with
  | nil => rfl
  | cons p rest ih =>
    obtain ⟨⟨w₁, type⟩, htype⟩ := Option.isSome_iff_exists.1 <|
      typeRef_isSome hrender w p.schema p.name
    obtain ⟨⟨w₂, m, ts⟩, hfirst⟩ : ∃ x, w.member g p = some x := ⟨_, by simp [member, htype]; rfl⟩
    obtain ⟨x, hrest⟩ := Option.isSome_iff_exists.1 (ih w₂)
    simp [members, hfirst, hrest]

theorem cases_isSome (typeName : String) (w : Walk) (used : List String) (index : Nat)
    (variants : List NodeId) : (cases g typeName w used index variants).isSome := by
  induction variants generalizing w used index with
  | nil => rfl
  | cons variant rest ih =>
    obtain ⟨⟨w₁, type⟩, htype⟩ := Option.isSome_iff_exists.1 <|
      typeRef_isSome hrender w variant (caseHint g typeName variant index)
    simp only [cases, htype, Option.bind_eq_bind, Option.bind_some]
    generalize hused : Identifier.freeName _ _ 2 used :: used = used'
    obtain ⟨x, hrest⟩ := Option.isSome_iff_exists.1 (ih w₁ used' (index + 1))
    rw [hrest]
    rfl

theorem enter_isSome (w : Walk) (id : NodeId) (node : Node) (hint : Option String)
    (isRoot : Bool) : (w.enter g id node hint isRoot).isSome := by
  -- naming a node always ends, so only the body of its contract matters
  have hnamed : ∀ body : Walk → String → Option (Walk × List Task),
      (∀ w name, (body w name).isSome) → (w.declareNamed g id hint body).isSome := by
    intro body hbody
    unfold declareNamed
    split
    · exact hbody _ _
    · rfl
  cases hkind : node.kind with
  | enumeration values =>
    simp only [enter, hkind]
    exact hnamed _ fun _ _ => rfl
  | union variants =>
    simp only [enter, hkind]
    split_ifs
    · rfl
    · refine hnamed _ fun w name => ?_
      obtain ⟨x, hx⟩ := Option.isSome_iff_exists.1 (cases_isSome hrender name w [] 0 variants)
      simp [declareUnion, hx]
    · rfl
  | object shape =>
    simp only [enter, hkind]
    refine hnamed _ fun w name => ?_
    obtain ⟨x, hx⟩ := Option.isSome_iff_exists.1 <|
      members_isSome hrender (w.base g name shape.base).1
      (shape.properties.filter fun p => inheritedProperty g id != some p.name)
    simp [declareRecord, hx]
  | array items => simp [enter, hkind]
  | primitive type format => simp [enter, hkind]
  | reference target => simp [enter, hkind]

theorem visit_isSome (w : Walk) (task : Task) : (w.visit g task).isSome := by
  simp only [visit]
  split_ifs
  · rfl
  · split
    · rfl
    · exact enter_isSome hrender _ _ _ _ _

end

/-! ### What is left to do -/

/-- A bound for the visits that are left: the tasks, and what the nodes that were not visited point
at. -/
def load (g : Graph) (w : Walk) (tasks : List Task) : Nat :=
  tasks.length + ∑ i ∈ Finset.range g.size \ w.visited.toFinset, (g.pointers i).length

/-- **Every visit takes something off the load.** -/
theorem Visits.load_lt (h : Visits g w task w' more) :
    load g w' (more ++ rest) < load g w (task :: rest) := by
  by_cases hseen : g.dereference task.node ∈ w.visited
  · cases h with
    | again _ => simp only [load, List.nil_append, List.length_cons]; omega
    | pass hnew _ _ _ => exact absurd hseen hnew
    | fail hnew _ _ => exact absurd hseen hnew
    | declare hnew _ _ _ _ => exact absurd hseen hnew
  · have hmore : more.length ≤ (g.pointers (g.dereference task.node)).length := by
      simpa using h.sublist.length_le
    -- the node of the task is no longer among those that were not visited
    have hunvisited : Finset.range g.size \ w'.visited.toFinset =
        (Finset.range g.size \ w.visited.toFinset).erase (g.dereference task.node) := by
      ext i
      simp only [Finset.mem_sdiff, Finset.mem_range, List.mem_toFinset, h.mem_visited,
        Finset.mem_erase]
      tauto
    by_cases hlt : g.dereference task.node < g.size
    · have hmem : g.dereference task.node ∈ Finset.range g.size \ w.visited.toFinset := by
        simp [hlt, hseen]
      have hsum : (g.pointers (g.dereference task.node)).length +
          ∑ i ∈ (Finset.range g.size \ w.visited.toFinset).erase (g.dereference task.node),
            (g.pointers i).length =
          ∑ i ∈ Finset.range g.size \ w.visited.toFinset, (g.pointers i).length :=
        Finset.add_sum_erase _ (fun i => (g.pointers i).length) hmem
      simp only [load, hunvisited, List.length_append, List.length_cons]
      omega
    · have hnode : g.node? (g.dereference task.node) = none := by
        simpa [Graph.node?, Graph.size] using hlt
      have hnone : (g.pointers (g.dereference task.node)).length = 0 := by
        simp [Graph.pointers, hnode]
      have hout : g.dereference task.node ∉ Finset.range g.size \ w.visited.toFinset := by
        simp [hlt]
      simp only [load, hunvisited, Finset.erase_eq_of_notMem hout, List.length_append,
        List.length_cons]
      omega

theorem eq_nil_of_load_le (h : load g w tasks ≤ 0) : tasks = [] := by
  have hlength : tasks.length = 0 := by
    simp only [load] at h
    omega
  exact List.eq_nil_of_length_eq_zero hlength

/-- **A bound of visits that covers the load cuts nothing off.** -/
theorem proceed_eq_of_load_le {n : Nat} (h : load g w tasks ≤ n) (k : Nat) :
    proceed g (n + k) w tasks = proceed g n w tasks := by
  induction n generalizing w tasks with
  | zero =>
    obtain rfl := eq_nil_of_load_le h
    cases k <;> rfl
  | succ n ih =>
    cases tasks with
    | nil => cases k <;> rfl
    | cons task rest =>
      have hn : n + 1 + k = n + k + 1 := by omega
      simp only [hn, proceed]
      cases hvisit : w.visit g task with
      | none => rfl
      | some x =>
        have hlt : load g x.1 (x.2 ++ rest) < load g w (task :: rest) :=
          (visit_visits hvisit).load_lt
        exact ih (by omega)

theorem run_isSome {n : Nat} (hvisit : ∀ w task, (visit w g task).isSome)
    (h : load g w tasks ≤ n) : (run g n w tasks).isSome := by
  suffices hleft : (proceed g n w tasks).2 = [] from
    Option.isSome_iff_exists.2 ⟨_, run_eq_some_iff.2 (Prod.ext rfl hleft)⟩
  induction n generalizing w tasks with
  | zero =>
    obtain rfl := eq_nil_of_load_le h
    rfl
  | succ n ih =>
    cases tasks with
    | nil => rfl
    | cons task rest =>
      obtain ⟨x, hx⟩ := Option.isSome_iff_exists.1 (hvisit w task)
      have hlt : load g x.1 (x.2 ++ rest) < load g w (task :: rest) := (visit_visits hx).load_lt
      simp only [proceed, hx]
      exact ih (by omega)

/-- At the start the load is no more than the bound of a walk. -/
theorem load_start_le (g : Graph) (task : Task) : load g {} [task] ≤ visitBound g := by
  have hwidth : ∀ i : Fin g.size, (g.pointers i).length ≤ (g.nodes[i]).kind.children.length :=
    fun i => (Graph.pointers_sublist (Array.getElem?_eq_getElem i.isLt)).length_le
  have hsum : (g.nodes.toList.map fun node => node.kind.children.length).sum =
      ∑ i : Fin g.size, (g.nodes[i]).kind.children.length := by
    rw [← List.sum_ofFn]
    congr 1
    exact List.ext_getElem (by simp [Graph.size]) (by simp)
  simp only [load, visitBound, List.length_flatMap, List.length_singleton, List.toFinset_nil,
    Finset.sdiff_empty, hsum, Finset.sum_range]
  exact Nat.add_le_add_left (Finset.sum_le_sum fun i _ => hwidth i) 1

end Walk

theorem Plan.proceed_visitBound_add (g : Graph) (task : Task) (k : Nat) :
    Walk.proceed g (Walk.visitBound g + k) {} [task] =
      Walk.proceed g (Walk.visitBound g) {} [task] :=
  Walk.proceed_eq_of_load_le (Walk.load_start_le g task) k

/-- **A graph has a plan unless arrays and unions without a declared name contain each other in a
circle.** -/
theorem Plan.ofGraph_isSome {g : Graph} (h : g.IsGrounded) (rootName : Option String) :
    (Plan.ofGraph g rootName).isSome := by
  have hrender : ∀ (r : Resolver) (id : NodeId) (hint : Option String),
      (r.typeRef g id hint).isSome := by
    intro r id hint
    have hempty : AcyclicFrom (Resolver.Opens g {}) (g.dereference id) := .of_irreflexive h
    exact Resolver.typeRef_isSome (hempty.mono fun _ _ hopens => hopens.of_any)
  obtain ⟨w, hw⟩ := Option.isSome_iff_exists.1 <|
    Walk.run_isSome (Walk.visit_isSome hrender) (Walk.load_start_le g ⟨g.root, rootName, true⟩)
  simp [Plan.ofGraph, hw]

/-! ### What ends -/

open Resolver in
/-- **What ends.** Rendering a reference ends, on any graph and with any names given before, just if
no circle of arrays and unions declared in place is reached from its node through such nodes; it
then goes at most one level deeper than there are nodes. So the whole walk ends, within its bound,
on every graph in which arrays and unions without a declared name contain each other in no circle,
whatever other circles there are. -/
theorem rendering_ends_iff (g : Graph) :
    (∀ (r : Resolver) (id : NodeId) (hint : Option String),
      ((∃ depth, HasDepth g r id hint depth) ↔
        ¬ ∃ c, Relation.ReflTransGen (Opens g r) (g.dereference id) c ∧
          Relation.TransGen (Opens g r) c c) ∧
      ∀ depth, HasDepth g r id hint depth →
        depth ≤ g.size + 1 ∧ descend g depth r id hint = r.typeRef g id hint) ∧
    ((¬ ∃ c, Relation.TransGen (Opens g {}) c c) → ∀ rootName : Option String,
      ∃ w : Walk, Plan.ofGraph g rootName = some ⟨w.events, w.resolver.features⟩ ∧
        ∀ more, Walk.run g (Walk.visitBound g + more) {} [⟨g.root, rootName, true⟩] = some w) := by
  refine ⟨fun r id hint => ⟨?_, fun depth hdepth => ?_⟩, fun hcircle rootName => ?_⟩
  · rw [exists_hasDepth_iff]
    simp only [AcyclicFrom, not_exists, not_and]
  · exact ⟨hdepth.le_size, hdepth.descend_eq⟩
  · have hgrounded : g.IsGrounded := fun c hc => hcircle ⟨c, hc⟩
    obtain ⟨p, hp⟩ := Option.isSome_iff_exists.1 (Plan.ofGraph_isSome hgrounded rootName)
    simp only [Plan.ofGraph, Option.bind_eq_bind, Option.bind_eq_some_iff] at hp
    obtain ⟨w, hrun, -⟩ := hp
    refine ⟨w, by simp [Plan.ofGraph, hrun], fun more => ?_⟩
    rw [Walk.run, Plan.proceed_visitBound_add]
    exact hrun

/-- A box has contents, and a content is a text, a row of contents or a box. -/
def boxes (name : Option String) : Graph where
  root := 0
  nodes := #[
    { Node.ofKind (.object ⟨[⟨"around", 0, false, false, false, none, []⟩,
        ⟨"contents", 1, true, false, false, none, []⟩], none, false, none⟩) with
      nameHint := some "Box" },
    Node.ofKind (.array 2), Node.ofKind (.reference 3),
    { Node.ofKind (.union [4, 1, 0]) with nameHint := name },
    Node.ofKind (.primitive .string none)]

open Resolver in
/-- Contents without a name hold themselves, so that a reference to them cannot be rendered; once
they have a name, rendering takes one level. The walk ends if they declare a name, although boxes
and contents still hold each other. -/
theorem rendering_ends_iff_boxes :
    (¬ ∃ depth, HasDepth (boxes none) {} 2 none depth) ∧
      HasDepth (boxes none) (Resolver.assign {} 3 "Content") 2 none 1 ∧
      ∃ w : Walk, Plan.ofGraph (boxes (some "Content")) none =
        some ⟨w.events, w.resolver.features⟩ := by
  have hmem : 1 ∈ [4, 1, 0] := by decide
  have hunion : Opens (boxes none) {} 3 ((boxes none).dereference 1) := .case rfl rfl rfl hmem
  have harray : Opens (boxes none) {} 1 ((boxes none).dereference 2) := .item rfl rfl
  have hgrounded : (boxes (some "Content")).IsGrounded :=
    Graph.isGrounded_of_lt (by decide +kernel)
  refine ⟨fun hdepth => ?_, ⟨rfl, ?_⟩, ?_⟩
  · refine ((rendering_ends_iff (boxes none)).1 {} 2 none).1.1 hdepth ⟨3, .refl, ?_⟩
    exact .head hunion (.single harray)
  · intro less hless
    obtain rfl : less = 0 := by omega
    rfl
  · obtain ⟨w, hw, -⟩ := (rendering_ends_iff (boxes (some "Content"))).2
      (not_exists.2 hgrounded) none
    exact ⟨w, hw⟩

end ContractGen
