import ContractGen.Proofs.Visits

/-!
# Named nodes are visited

A node can get its name long before it is visited: a reference is rendered through arrays and
through unions that are declared in place, and everything in it is named at once. The walk comes to
these nodes one by one, later, when some of the unions may have got a name and others may have been
visited on another way. `Walk.Covers` is the invariant that nothing is lost in between: a named node
is visited, is to be visited, or is led to by a node that is, through nodes that are not visited
yet. At the end of a walk every named node is visited (`Walk.Reached.visited_of_named`).
-/

namespace ContractGen

open Schema (Graph Node NodeId Kind)

/-! ### What nodes open into -/

/-- A node is passed through to another one: from an array to its items, and from a union that is
declared in place to its variants. -/
inductive Resolver.Opens (g : Graph) (r : Resolver) : NodeId → NodeId → Prop where
  /-- From an array to its items. -/
  | item {c items : NodeId} {node : Node} : g.node? c = some node → node.kind = .array items →
      Opens g r c (g.dereference items)
  /-- From a union declared in place to a variant. -/
  | case {c variant : NodeId} {node : Node} {variants : List NodeId} : g.node? c = some node →
      node.kind = .union variants → r.isInline c node = true → variant ∈ variants →
      Opens g r c (g.dereference variant)

namespace Resolver.Opens

variable {g : Graph} {r r' : Resolver} {c d : NodeId}

/-- What a known node opens into. -/
theorem inv {node : Node} (hnode : g.node? c = some node) (h : Opens g r c d) :
    (∃ items, node.kind = .array items ∧ d = g.dereference items) ∨
      ∃ variants, node.kind = .union variants ∧ r.isInline c node = true ∧
        ∃ variant ∈ variants, d = g.dereference variant := by
  cases h with
  | item hnode' hkind =>
    obtain rfl := Option.some.inj (hnode.symm.trans hnode')
    exact .inl ⟨_, hkind, rfl⟩
  | case hnode' hkind hinline hmem =>
    obtain rfl := Option.some.inj (hnode.symm.trans hnode')
    exact .inr ⟨_, hkind, hinline, _, hmem, rfl⟩

theorem of_grows {P : NodeId → String → Prop} (hg : Grows P r r') (h : Opens g r' c d) :
    Opens g r c d := by
  cases h with
  | item hnode hkind => exact .item hnode hkind
  | case hnode hkind hinline hmem => exact .case hnode hkind (isInline_of_grows hg hinline) hmem

theorem of_any (h : Opens g r c d) : Opens g {} c d := by
  cases h with
  | item hnode hkind => exact .item hnode hkind
  | case hnode hkind hinline hmem =>
    refine .case hnode hkind ?_ hmem
    simp only [isInline, Bool.and_eq_true] at hinline ⊢
    exact ⟨hinline.1, rfl⟩

theorem mem_edges (h : Opens g r c d) : d ∈ g.edges c := by
  cases h with
  | item hnode hkind => simp [Graph.edges, hnode, hkind]
  | case hnode hkind _ hmem =>
    simp only [Graph.edges, hnode, Option.map_some, hkind]
    exact List.mem_map_of_mem hmem

theorem not_isNominal (h : Opens g r c d) : ¬ g.IsNominal c := by
  rintro ⟨node, hnode, hnominal⟩
  obtain ⟨items, hkind, -⟩ | ⟨variants, hkind, hinline, -⟩ := h.inv hnode
  · simp [Node.isNominal, hkind] at hnominal
  · simp only [Node.isNominal, hkind, Bool.and_eq_true] at hnominal
    simp only [isInline, Bool.and_eq_true, Option.isNone_iff_eq_none] at hinline
    simp [hinline.1] at hnominal

end Resolver.Opens

open Resolver (Opens)

/-- `c` leads to `i` through nodes that are not in `visited`. -/
inductive Schema.Graph.Path (g : Graph) (visited : List NodeId) : NodeId → NodeId → Prop where
  /-- A node leads to itself. -/
  | here {i : NodeId} : Path g visited i i
  /-- A node that is not visited leads to what it opens into. -/
  | step {c d i : NodeId} : c ∉ visited → Opens g {} c d → Path g visited d i → Path g visited c i

namespace Schema.Graph.Path

variable {g : Graph} {visited : List NodeId} {c i : NodeId}

theorem eq_of_mem (h : g.Path visited c i) (hc : c ∈ visited) : c = i := by
  cases h with
  | here => rfl
  | step hc' _ _ => exact absurd hc hc'

/-- When a node is visited, a path avoids it, or can be taken up behind it. -/
theorem avoid (c₀ : NodeId) (h : g.Path visited c i) :
    g.Path (c₀ :: visited) c i ∨ ∃ d, Opens g {} c₀ d ∧ g.Path (c₀ :: visited) d i := by
  induction h with
  | here => exact .inl .here
  | @step c d i hc hopens _ ih =>
    rcases ih with hpath | hbehind
    · by_cases heq : c = c₀
      · exact .inr ⟨d, heq ▸ hopens, hpath⟩
      · exact .inl (.step (by simp [heq, hc]) hopens hpath)
    · exact .inr hbehind

end Schema.Graph.Path

namespace Resolver

variable {g : Graph} {r r' : Resolver} {id : NodeId} {hint : Option String}

/-- **A reference that leads to a named type can be rendered**, whatever else it leads to. -/
theorem typeRef_ok_of_path {visited : List NodeId} {i : NodeId} {out : Except Fault TypeRef}
    (h : r.typeRef g id hint = some (r', out)) (hpath : g.Path visited (g.dereference id) i)
    (hi : g.IsNominal i) (hnamed : (r.nameOf i).isSome = true) : ∃ t, out = .ok t := by
  refine descend_rule
    (P := fun r id _ _ out => ∀ i, g.Path visited (g.dereference id) i → g.IsNominal i →
      (r.nameOf i).isSome = true → ∃ t, out = .ok t)
    (Q := fun _ _ _ _ _ _ => True)
    ?missing ?builtin ?unknown ?array ?empty ?inline ?named ?unnamed ?nil ?cons
    _ r id hint r' out h i hpath hi hnamed
  case missing =>
    intro r id hint hnode i hpath hi _
    cases hpath with
    | here =>
      obtain ⟨node, hnode', -⟩ := hi
      rw [hnode] at hnode'; cases hnode'
    | step _ hopens _ => cases hopens <;> simp_all
  case builtin => exact fun _ _ _ _ _ _ _ _ _ _ _ _ => ⟨_, rfl⟩
  case unknown => exact fun _ _ _ _ _ _ _ _ _ _ _ => ⟨_, rfl⟩
  case array =>
    intro r id hint node items r' out hnode hkind ih i hpath hi hnamed
    cases hpath with
    | here => exact absurd hi (Opens.item (r := {}) hnode hkind).not_isNominal
    | step _ hopens hrest =>
      obtain ⟨_, hkind', rfl⟩ | ⟨_, hkind', -⟩ := hopens.inv hnode
      · obtain rfl : items = _ := by simpa [hkind] using hkind'
        obtain ⟨t, rfl⟩ := ih i hrest hi hnamed
        exact ⟨.collection t, rfl⟩
      · simp [hkind] at hkind'
  case empty =>
    intro r id hint node hnode hkind i hpath hi _
    cases hpath with
    | here =>
      obtain ⟨node', hnode', hnominal⟩ := hi
      obtain rfl := Option.some.inj (hnode.symm.trans hnode')
      simp [Node.isNominal, hkind] at hnominal
    | step _ hopens _ => cases hopens <;> simp_all
  case inline => exact fun _ _ _ _ _ _ _ _ _ _ _ _ _ _ _ _ => ⟨_, rfl⟩
  case named => exact fun _ _ _ _ _ _ _ _ _ _ _ _ _ _ => ⟨_, rfl⟩
  case unnamed =>
    intro r id hint node fault hnode hnominal herr i hpath hi hnamed
    cases hpath with
    | here =>
      obtain ⟨name, hname⟩ := Option.isSome_iff_exists.1 hnamed
      have hself := Graph.dereference_of_target?_eq_none
        (target?_eq_none_of_isNominal (r := r) hnode (.inl hnominal))
      rw [resolve_of_named (by rw [hself, hname])] at herr
      cases herr
    | step _ hopens _ => exact absurd ⟨node, hnode, hnominal⟩ hopens.not_isNominal
  case nil => exact fun _ _ _ => trivial
  case cons => exact fun _ _ _ _ _ _ _ _ _ _ _ _ _ _ => trivial

end Resolver

/-! ### What is ahead of a walk -/

/-- `i` is visited, is to be visited, or is a type that a node to be visited leads to. -/
def Schema.Graph.Awaited (g : Graph) (visited ahead : List NodeId) (i : NodeId) : Prop :=
  i ∈ visited ∨ i ∈ ahead ∨ g.IsNominal i ∧ ∃ c ∈ ahead, g.Path visited c i

/-- What visited nodes open into is visited or is to be visited. -/
def Resolver.Closed (g : Graph) (r : Resolver) (visited ahead : List NodeId) : Prop :=
  ∀ c ∈ visited, ∀ d, Opens g r c d → d ∈ visited ∨ d ∈ ahead

section

variable {g : Graph} {r r' : Resolver} {visited rest more : List NodeId} {c i : NodeId}

theorem Schema.Graph.Awaited.again (hc : c ∈ visited) (h : g.Awaited visited (c :: rest) i) :
    g.Awaited visited rest i := by
  rcases h with h | h | ⟨hi, s, hs, hpath⟩
  · exact .inl h
  · rcases List.mem_cons.1 h with rfl | h
    · exact .inl hc
    · exact .inr (.inl h)
  · rcases List.mem_cons.1 hs with rfl | hs
    · exact .inl (hpath.eq_of_mem hc ▸ hc)
    · exact .inr (.inr ⟨hi, s, hs, hpath⟩)

/-- A visit keeps what is awaited if what can be taken up behind the node is to be visited. -/
theorem Schema.Graph.Awaited.first (h : g.Awaited visited (c :: rest) i)
    (hmore : ∀ d, Opens g {} c d → g.Path (c :: visited) d i → g.IsNominal i → d ∈ more) :
    g.Awaited (c :: visited) (more ++ rest) i := by
  rcases h with h | h | ⟨hi, s, hs, hpath⟩
  · exact .inl (List.mem_cons_of_mem _ h)
  · rcases List.mem_cons.1 h with rfl | h
    · exact .inl List.mem_cons_self
    · exact .inr (.inl (List.mem_append_right _ h))
  · rcases hpath.avoid c with hpath | ⟨d, hopens, hpath⟩
    · rcases List.mem_cons.1 hs with rfl | hs
      · exact .inl (by simp [hpath.eq_of_mem List.mem_cons_self])
      · exact .inr (.inr ⟨hi, s, List.mem_append_right _ hs, hpath⟩)
    · exact .inr (.inr ⟨hi, d, List.mem_append_left _ (hmore d hopens hpath hi), hpath⟩)

theorem Resolver.Closed.of_grows {P : NodeId → String → Prop} {ahead : List NodeId}
    (hg : Grows P r r') (h : r.Closed g visited ahead) : r'.Closed g visited ahead :=
  fun c hc d hopens => h c hc d (hopens.of_grows hg)

theorem Resolver.Closed.again (hc : c ∈ visited) (h : r.Closed g visited (c :: rest)) :
    r.Closed g visited rest := by
  intro u hu d hopens
  rcases h u hu d hopens with hd | hd
  · exact .inl hd
  · rcases List.mem_cons.1 hd with rfl | hd
    · exact .inl hc
    · exact .inr hd

theorem Resolver.Closed.first (h : r.Closed g visited (c :: rest))
    (hmore : ∀ d, Opens g r c d → d ∈ more) : r.Closed g (c :: visited) (more ++ rest) := by
  intro u hu d hopens
  rcases List.mem_cons.1 hu with rfl | hu
  · exact .inr (List.mem_append_left _ (hmore d hopens))
  · rcases h u hu d hopens with hd | hd
    · exact .inl (List.mem_cons_of_mem _ hd)
    · rcases List.mem_cons.1 hd with rfl | hd
      · exact .inl List.mem_cons_self
      · exact .inr (List.mem_append_right _ hd)

theorem Resolver.Leads.awaited {ahead : List NodeId} {hint h : Option String}
    (hlead : Leads g r c hint i h) (hclosed : r.Closed g visited ahead) (hi : g.IsNominal i)
    (hc : c ∈ ahead) : g.Awaited visited ahead i := by
  -- along the way, what is led to is awaited already or can be reached through new nodes
  have hway : g.Awaited visited ahead i ∨ g.Path visited c i := by
    clear hc
    have hstep : ∀ {c d}, Opens g r c d → g.Awaited visited ahead i ∨ g.Path visited d i →
        g.Awaited visited ahead i ∨ g.Path visited c i := by
      rintro c d hopens (hawaited | hpath)
      · exact .inl hawaited
      · by_cases hc : c ∈ visited
        · rcases hclosed c hc d hopens with hd | hd
          · exact .inl (.inl (hpath.eq_of_mem hd ▸ hd))
          · exact .inl (.inr (.inr ⟨hi, d, hd, hpath⟩))
        · exact .inr (.step hc hopens.of_any hpath)
    induction hlead with
    | here => exact .inr .here
    | item hnode hkind _ ih => exact hstep (.item hnode hkind) (ih hi hstep)
    | case hnode hkind hinline hindex _ ih =>
      exact hstep (.case hnode hkind hinline (List.mem_of_getElem? hindex)) (ih hi hstep)
  rcases hway with hawaited | hpath
  · exact hawaited
  · exact .inr (.inr ⟨hi, c, hc, hpath⟩)

end

namespace Walk

variable {g : Graph} {rootName : Option String} {w w' : Walk} {task : Task}
  {tasks rest more : List Task}

/-- The nodes that are to be visited. -/
def ahead (g : Graph) (tasks : List Task) : List NodeId := tasks.map fun t => g.dereference t.node

/-- Nothing that has a name is lost. -/
structure Covers (g : Graph) (w : Walk) (tasks : List Task) : Prop where
  /-- Every named node is awaited. -/
  named : ∀ i, (w.resolver.nameOf i).isSome = true → g.Awaited w.visited (ahead g tasks) i
  /-- What visited nodes open into is visited or is to be visited. -/
  closed : w.resolver.Closed g w.visited (ahead g tasks)

/-- A visit that gives no names keeps what is covered if all that the node opens into is to be
visited. -/
theorem Covers.first (h : Covers g w (task :: rest))
    (hvisited : w'.visited = g.dereference task.node :: w.visited)
    (hresolver : w'.resolver = w.resolver)
    (hmore : ∀ d, Opens g {} (g.dereference task.node) d → d ∈ ahead g more) :
    Covers g w' (more ++ rest) where
  named i hi := by
    rw [hvisited, ahead, List.map_append]
    exact (h.named i (hresolver ▸ hi)).first fun d hopens _ _ => hmore d hopens
  closed := by
    rw [hvisited, hresolver, ahead, List.map_append]
    exact h.closed.first fun d hopens => hmore d hopens.of_any

/-- A node that gets no contract though it should opens into nothing, unless the walk starts
there. -/
theorem not_opens_of_fail {id d : NodeId} {node : Node} {hint : Option String} {fault : Fault}
    (hnode : g.node? id = some node)
    (hfail : node.kind = .union [] ∨ w.declares id node false = true ∧
      w.resolver.resolve g id hint = .error fault) : ¬ Opens g {} id d := by
  intro hopens
  obtain ⟨items, hkind, -⟩ | ⟨variants, hkind, hinline, variant, hmem, -⟩ := hopens.inv hnode
  · simp [declares, hkind] at hfail
  · obtain hempty | ⟨hdeclares, herr⟩ := hfail
    · obtain rfl := by simpa [hkind] using hempty
      cases hmem
    · -- a union that declares no name should get a contract only if it has a name
      have hnamed : (w.resolver.nameOf id).isSome = true := by
        simp only [Resolver.isInline, Bool.and_eq_true, Option.isNone_iff_eq_none] at hinline
        simp only [declares, hkind, isNamedUnion, Bool.and_eq_true, Bool.or_eq_true] at hdeclares
        simpa [hinline.1] using hdeclares.2
      obtain ⟨name, hname⟩ := Option.isSome_iff_exists.1 hnamed
      rw [← dereference_of_declares hnode hdeclares] at hname
      rw [Resolver.resolve_of_named hname] at herr
      cases herr

theorem not_opens_of_declares {id d : NodeId} {node : Node} {isRoot : Bool} {r : Resolver}
    {name : String} (hnode : g.node? id = some node) (hdeclares : w.declares id node isRoot = true)
    (hname : r.nameOf id = some name) : ¬ Opens g r id d := by
  intro hopens
  obtain ⟨items, hkind, -⟩ | ⟨variants, -, hinline, -⟩ := hopens.inv hnode
  · simp [declares, hkind] at hdeclares
  · simp [Resolver.isInline, hname] at hinline

/-- A node behind one with a contract is to be visited if it leads to a named type. -/
theorem Built.mem_ahead {w₁ : Walk} {id d i : NodeId} {node : Node} {c : Contract}
    {visited : List NodeId} {isRoot : Bool} (hbuilt : Built g w₁ w' id node c more)
    (hnode : g.node? id = some node) (hdeclares : w.declares id node isRoot = true)
    (hopens : Opens g {} id d) (hpath : g.Path visited d i) (hi : g.IsNominal i)
    (hnamed : (w₁.resolver.nameOf i).isSome = true) : d ∈ ahead g more := by
  obtain ⟨items, hkind, -⟩ | ⟨variants, hkind, -, variant, hmem, rfl⟩ := hopens.inv hnode
  · simp [declares, hkind] at hdeclares
  · obtain ⟨t, ht, rfl⟩ | ⟨r, hint, r', fault, hgrows, hfail⟩ :=
      hbuilt.pushed variants hkind variant hmem
    · exact List.mem_map_of_mem ht
    · obtain ⟨name, hname⟩ := Option.isSome_iff_exists.1 hnamed
      obtain ⟨type, htype⟩ := Resolver.typeRef_ok_of_path hfail hpath hi
        (by rw [hgrows.nameOf hname]; rfl)
      cases htype

theorem Built.covers {w₁ : Walk} {node : Node} {name : String} {r : Resolver} {c : Contract}
    (hcovers : Covers g w (task :: rest))
    (hnode : g.node? (g.dereference task.node) = some node)
    (hdeclares : w.declares (g.dereference task.node) node task.isRoot = true)
    (hok : w.resolver.resolve g (g.dereference task.node) task.hint = .ok (name, r))
    (hbuilt : Built g { w.mark (g.dereference task.node) with resolver := r } w₁
      (g.dereference task.node) node c more) : Covers g (w₁.declare c) (more ++ rest) := by
  obtain ⟨hname, hfirst⟩ := Resolver.resolve_grows hok
  rw [dereference_of_declares hnode hdeclares] at hname hfirst
  have hvisited : w₁.visited = g.dereference task.node :: w.visited := hbuilt.part.fills.visited
  have hgrows := hbuilt.part.fills.grows
  have hclosed : r.Closed g (g.dereference task.node :: w.visited) (ahead g (more ++ rest)) := by
    rw [ahead, List.map_append]
    refine (hcovers.closed.of_grows hfirst).first fun d hopens => ?_
    exact absurd hopens (not_opens_of_declares hnode hdeclares hname)
  constructor
  · intro i hi
    obtain ⟨n, hn⟩ := Option.isSome_iff_exists.1 hi
    rw [Walk.declare, hvisited]
    -- the node had its name before, is the one that is visited, or got its name from a part
    rcases hgrows.old_or_allowed hn with hr | ⟨-, _, t, ht, ⟨hint, hlead, -⟩, hkind⟩
    · rcases hfirst.old_or_allowed hr with hold | ⟨-, _, rfl, -⟩
      · rw [ahead, List.map_append]
        refine (hcovers.named i (by rw [hold]; rfl)).first fun d hopens hpath hnominal => ?_
        exact hbuilt.mem_ahead hnode hdeclares hopens hpath hnominal (by rw [hr]; rfl)
      · exact .inl List.mem_cons_self
    · have hahead : g.dereference t.node ∈ ahead g (more ++ rest) :=
        List.mem_map_of_mem (List.mem_append_left _ ht)
      rcases hkind with hnominal | ⟨rfl, -⟩
      · exact hlead.awaited hclosed hnominal hahead
      · exact .inr (.inl hahead)
  · rw [Walk.declare, hvisited]
    exact hclosed.of_grows hgrows

/-- **One visit loses nothing**, unless the walk starts and ends with it. -/
theorem Visits.covers (h : Visits g w task w' more) (hcovers : Covers g w (task :: rest)) :
    Covers g w' (more ++ rest) ∨
      task.isRoot = true ∧ more = [] ∧ w'.resolver = w.resolver := by
  cases h with
  | again hseen =>
    exact .inl ⟨fun i hi => (hcovers.named i hi).again hseen, hcovers.closed.again hseen⟩
  | pass _ _ hpointers _ =>
    refine .inl (hcovers.first rfl rfl fun d hopens => ?_)
    rw [ahead, map_dereference_eq_edges hpointers]
    exact hopens.mem_edges
  | fail _ hnode hfail =>
    cases hroot : task.isRoot with
    | true => exact .inr ⟨rfl, rfl, resolver_report _ _⟩
    | false =>
      rw [hroot] at hfail
      refine .inl (hcovers.first (visited_report _ _) (resolver_report _ _) fun d hopens => ?_)
      exact absurd hopens (not_opens_of_fail hnode hfail)
  | declare _ hnode hdeclares hok hbuilt => exact .inl (hbuilt.covers hcovers hnode hdeclares hok)

/-- Along a walk nothing that has a name is lost. -/
theorem Reached.covers (h : Reached g rootName w tasks) :
    Covers g w tasks ∨ tasks = [] ∧ ∀ i, w.resolver.nameOf i = none := by
  refine h.induct_walk (P := fun w tasks =>
    Covers g w tasks ∨ tasks = [] ∧ ∀ i, w.resolver.nameOf i = none) (.inl ⟨?_, ?_⟩) ?_
  · simp [Resolver.nameOf]
  · intro c hc; cases hc
  intro w task rest w' more hreached ih hvisit
  rcases ih with hcovers | ⟨htasks, -⟩
  · rcases hvisit.covers hcovers with h | ⟨hroot, rfl, hresolver⟩
    · exact .inl h
    · -- nothing was done before the start
      rcases hreached.start_or_nested with ⟨rfl, htasks⟩ | ⟨-, hnested⟩
      · obtain ⟨-, rfl⟩ := List.cons.inj htasks
        exact .inr ⟨rfl, fun i => by rw [hresolver]; rfl⟩
      · rw [hnested task List.mem_cons_self] at hroot
        cases hroot
  · cases htasks

/-- **At the end of a walk every named node is visited.** -/
theorem Reached.visited_of_named (h : Reached g rootName w []) {i : NodeId} {name : String}
    (hi : w.resolver.nameOf i = some name) : i ∈ w.visited := by
  rcases h.covers with hcovers | ⟨-, hnone⟩
  · rcases hcovers.named i (by rw [hi]; rfl) with hvisited | hahead | ⟨-, c, hc, -⟩
    · exact hvisited
    · cases hahead
    · cases hc
  · rw [hnone i] at hi
    cases hi

end Walk

end ContractGen
