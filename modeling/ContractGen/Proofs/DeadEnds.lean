import ContractGen.Proofs.Bodies
import ContractGen.Proofs.Closure
import ContractGen.Proofs.Ending
import ContractGen.Proofs.Explanations
import ContractGen.Proofs.Spelling

/-!
# No dead ends

The functions of a walk are total on every graph: they have an answer where a pointer hits nothing,
and where what it stands for is still a reference. In a sound graph nothing comes to these answers.
The soundness of a graph is about the pointers that stand in its nodes, so what has to be shown is
that a walk meets no others.

* A walk has tasks for the root and for what nodes point at (`Walk.Reached.lt_size`).
* Rendering a reference goes from a node to what it points at. `Resolver.ByKind` has a rule for
  each kind of node, none for a missing node and none for a reference, and these rules give exactly
  what is rendered (`Resolver.typeRef_eq_some_iff`).
* What is named or has a fault is a node, and no reference (`Walk.Reached.isProper_of_named`,
  `Walk.Reached.isProper_of_fault`).
* The hint for a base ends in a word, so it gives an identifier, and resolving a base never fails
  (`Resolver.resolve_base`). A class whose object has a base has the name of that
  (`Walk.Reached.base_named`).

`no_dead_ends` puts this together.
-/

namespace ContractGen

open Schema (Graph Node NodeId Kind)

/-- There is a node at a position, and it is no reference. -/
def Schema.Graph.IsProper (g : Graph) (id : NodeId) : Prop :=
  ∃ node, g.node? id = some node ∧ ∀ target, node.kind ≠ .reference target

/-! ### Rendering goes by kinds -/

namespace Resolver

mutual

/-- How a reference is rendered, by the kind of the node that `id` stands for. -/
inductive ByKind (g : Graph) :
    Resolver → NodeId → Option String → Resolver → Except Fault TypeRef → Prop where
  /-- A scalar is a built-in type. -/
  | primitive {r : Resolver} {id : NodeId} {hint : Option String} {node : Node}
      {type : Schema.Primitive} {format : Option String} :
      g.node? (g.dereference id) = some node → node.kind = .primitive type format →
      ByKind g r id hint r (.ok (.builtin type format))
  /-- An array is a collection of its items. -/
  | array {r r' : Resolver} {id items : NodeId} {hint : Option String} {node : Node}
      {out : Except Fault TypeRef} :
      g.node? (g.dereference id) = some node → node.kind = .array items →
      ByKind g r items (itemHint hint) r' out → ByKind g r id hint r' (out.map .collection)
  /-- A union of nothing has no type. -/
  | nothing {r : Resolver} {id : NodeId} {hint : Option String} {node : Node} :
      g.node? (g.dereference id) = some node → node.kind = .union [] →
      ByKind g r id hint r (.error ⟨g.dereference id, hint, .emptyUnion⟩)
  /-- A union in place is rendered by its cases. -/
  | inline {r r' : Resolver} {id : NodeId} {hint : Option String} {node : Node}
      {variants : List NodeId} {cases : List TypeRef} :
      g.node? (g.dereference id) = some node → node.kind = .union variants → variants ≠ [] →
      r.isInline (g.dereference id) node = true → ByKindAll g hint 0 r variants r' cases →
      ByKind g r id hint { r' with features := r'.features.withInlineUnion variants.length }
        (.ok (.oneOf cases))
  /-- Another union is referred to by its name. -/
  | union {r r' : Resolver} {id : NodeId} {hint : Option String} {node : Node}
      {variants : List NodeId} {out : Except Fault TypeRef} :
      g.node? (g.dereference id) = some node → node.kind = .union variants → variants ≠ [] →
      r.isInline (g.dereference id) node = false →
      r.namedRef g (g.dereference id) hint false = (r', out) → ByKind g r id hint r' out
  /-- An enumeration is referred to by its name. -/
  | enumeration {r r' : Resolver} {id : NodeId} {hint : Option String} {node : Node}
      {values : List Json.Value} {out : Except Fault TypeRef} :
      g.node? (g.dereference id) = some node → node.kind = .enumeration values →
      r.namedRef g (g.dereference id) hint true = (r', out) → ByKind g r id hint r' out
  /-- An object is referred to by its name. -/
  | object {r r' : Resolver} {id : NodeId} {hint : Option String} {node : Node}
      {shape : Schema.Shape} {out : Except Fault TypeRef} :
      g.node? (g.dereference id) = some node → node.kind = .object shape →
      r.namedRef g (g.dereference id) hint false = (r', out) → ByKind g r id hint r' out

/-- How the cases of a union from the one at a position on are rendered, one after the other. -/
inductive ByKindAll (g : Graph) :
    Option String → Nat → Resolver → List NodeId → Resolver → List TypeRef → Prop where
  /-- There are no more cases. -/
  | nil {hint : Option String} {index : Nat} {r : Resolver} : ByKindAll g hint index r [] r []
  /-- A case that fails is the type of every value. -/
  | cons {hint : Option String} {index : Nat} {r r₁ r' : Resolver} {variant : NodeId}
      {rest : List NodeId} {out : Except Fault TypeRef} {cases : List TypeRef} :
      ByKind g r variant (caseHint hint index) r₁ out →
      ByKindAll g hint (index + 1) (r₁.settleCase out).1 rest r' cases →
      ByKindAll g hint index r (variant :: rest) r' ((r₁.settleCase out).2 :: cases)

end

variable {g : Graph} {r r' : Resolver} {id : NodeId} {hint : Option String}
  {out : Except Fault TypeRef}

theorem byKindAll_of_caseRefs {depth index : Nat} {variants : List NodeId} {cases : List TypeRef}
    (ih : ∀ r id hint r' out, id < g.size → descend g depth r id hint = some (r', out) →
      ByKind g r id hint r' out)
    (hvariants : ∀ v ∈ variants, v < g.size)
    (h : caseRefs (descend g depth) hint index r variants = some (r', cases)) :
    ByKindAll g hint index r variants r' cases := by
  induction variants generalizing index r r' cases with
  | nil =>
    obtain ⟨rfl, rfl⟩ : r = r' ∧ [] = cases := by simpa [caseRefs] using h
    exact .nil
  | cons variant rest ihrest =>
    simp only [caseRefs, Option.bind_eq_bind, Option.bind_eq_some_iff, Prod.exists] at h
    obtain ⟨r₁, out, hfirst, r₂, ts, hrest, heq⟩ := h
    obtain ⟨rfl, rfl⟩ := by simpa using heq
    refine .cons (ih _ _ _ _ _ (hvariants variant List.mem_cons_self) hfirst) ?_
    exact ihrest (fun v hv => hvariants v (List.mem_cons_of_mem _ hv)) hrest

/-- **In a sound graph a descent goes by kinds**: it comes to no missing node and to no
reference. -/
theorem byKind_of_descend (hvalid : g.validate = .ok ()) {depth : Nat} (hid : id < g.size)
    (h : descend g depth r id hint = some (r', out)) : ByKind g r id hint r' out := by
  induction depth generalizing r id hint r' out with
  | zero => simp [descend] at h
  | succ depth ih =>
    obtain ⟨node, hnode, hreference⟩ := Graph.exists_dereferenced hvalid hid
    have hchild : ∀ child ∈ node.kind.children, child < g.size :=
      fun child => Graph.lt_size_of_child hvalid hnode
    simp only [descend, hnode] at h
    cases hkind : node.kind with
    | reference target => exact absurd hkind (hreference target)
    | primitive type format =>
      obtain ⟨rfl, rfl⟩ : r = r' ∧ _ = out := by simpa [hkind] using h
      exact .primitive hnode hkind
    | enumeration values =>
      simp only [hkind] at h
      exact .enumeration hnode hkind (Option.some.inj h)
    | object shape =>
      simp only [hkind] at h
      exact .object hnode hkind (Option.some.inj h)
    | array items =>
      simp only [hkind, Option.bind_eq_bind, Option.bind_eq_some_iff, Prod.exists] at h
      obtain ⟨r₁, item, hitem, heq⟩ := h
      obtain ⟨rfl, rfl⟩ : r₁ = r' ∧ _ = out := by simpa using heq
      have hitems : items < g.size := hchild items (by simp [hkind, Kind.children])
      exact .array hnode hkind (ih hitems hitem)
    | union variants =>
      simp only [hkind] at h
      split_ifs at h with hempty hinline
      · obtain rfl := List.isEmpty_iff.1 hempty
        obtain ⟨rfl, rfl⟩ : r = r' ∧ _ = out := by simpa using h
        exact .nothing hnode hkind
      · simp only [Option.bind_eq_bind, Option.bind_eq_some_iff, Prod.exists] at h
        obtain ⟨r₁, cases, hrun, heq⟩ := h
        obtain ⟨rfl, rfl⟩ : _ = r' ∧ _ = out := by simpa using heq
        have hvariants : ∀ v ∈ variants, v < g.size :=
          fun v hv => hchild v (by simpa [hkind, Kind.children] using hv)
        refine .inline hnode hkind (by simpa using hempty) hinline ?_
        exact byKindAll_of_caseRefs (fun _ _ _ _ _ => ih) hvariants hrun
      · exact .union hnode hkind (by simpa using hempty) (by simpa using hinline)
          (Option.some.inj h)

mutual

/-- What goes by kinds is found by a descent that is deep enough. -/
theorem ByKind.exists_descend {r r' : Resolver} {id : NodeId} {hint : Option String}
    {out : Except Fault TypeRef} :
    ByKind g r id hint r' out → ∃ depth, descend g depth r id hint = some (r', out)
  | .primitive hnode hkind => ⟨1, by simp [descend, hnode, hkind]⟩
  | .array hnode hkind hitems => by
    obtain ⟨depth, hdepth⟩ := hitems.exists_descend
    exact ⟨depth + 1, by simp [descend, hnode, hkind, hdepth]⟩
  | .nothing hnode hkind => ⟨1, by simp [descend, hnode, hkind]⟩
  | .inline hnode hkind hne hinline hcases => by
    obtain ⟨depth, hdepth⟩ := hcases.exists_caseRefs
    exact ⟨depth + 1, by simp [descend, hnode, hkind, hne, hinline, hdepth]⟩
  | .union hnode hkind hne hinline h => ⟨1, by simp [descend, hnode, hkind, hne, hinline, h]⟩
  | .enumeration hnode hkind h => ⟨1, by simp [descend, hnode, hkind, h]⟩
  | .object hnode hkind h => ⟨1, by simp [descend, hnode, hkind, h]⟩

theorem ByKindAll.exists_caseRefs {hint : Option String} {index : Nat} {r r' : Resolver}
    {variants : List NodeId} {cases : List TypeRef} :
    ByKindAll g hint index r variants r' cases →
      ∃ depth, caseRefs (descend g depth) hint index r variants = some (r', cases)
  | .nil => ⟨0, rfl⟩
  | .cons hfirst hrest => by
    obtain ⟨depth, hdepth⟩ := hfirst.exists_descend
    obtain ⟨depth', hdepth'⟩ := hrest.exists_caseRefs
    have hfirst' := descend_mono hdepth depth'
    have hrest' := caseRefs_mono (fun _ _ _ _ h => Nat.add_comm depth' depth ▸ descend_mono h depth)
      hdepth'
    exact ⟨depth + depth', by simp [caseRefs, hfirst', hrest']⟩

end

/-- **The rules give exactly what is rendered**, in a sound graph. -/
theorem typeRef_eq_some_iff (hvalid : g.validate = .ok ()) (hid : id < g.size) :
    r.typeRef g id hint = some (r', out) ↔ ByKind g r id hint r' out := by
  refine ⟨byKind_of_descend hvalid hid, fun h => ?_⟩
  obtain ⟨depth, hdepth⟩ := h.exists_descend
  -- the bound of a descent cuts nothing off, so some deeper one has the same answer
  have hdeeper : descend g (depth + (g.size + 1)) r id hint = r.typeRef g id hint :=
    descend_eq_typeRef (by omega)
  exact hdeeper ▸ descend_mono hdepth _

end Resolver

/-! ### Bases have names -/

/-- **Resolving a base never fails.** -/
theorem Resolver.resolve_base (r : Resolver) (g : Graph) (base : NodeId) (typeName : String) :
    ∃ name r', r.resolve g base (some (typeName ++ "Base")) = .ok (name, r') := by
  obtain ⟨name, -, hok⟩ | ⟨-, c, name, -, -, hok⟩ | ⟨-, hnone, -⟩ :=
    resolve_cases r g base (some (typeName ++ "Base"))
  · exact ⟨name, r, hok⟩
  · exact ⟨name, _, hok⟩
  · -- the hint ends in a word, so it gives an identifier
    obtain ⟨name, hname⟩ : ∃ name, Identifier.typeName? (typeName ++ "Base") = some name :=
      Identifier.exists_typeName_append typeName rfl (by decide +kernel)
    rw [candidate?, List.findSome?_eq_none_iff] at hnone
    rw [hnone (typeName ++ "Base") (by simp)] at hname
    cases hname

/-! ### Walks -/

theorem Contract.Made.isProper {g : Graph} {id : NodeId} {node : Node} {name : String}
    {body : Contract.Body} (hnode : g.node? id = some node)
    (h : Contract.Made g id node name body) : g.IsProper id := by
  refine ⟨node, hnode, fun target href => ?_⟩
  cases h with
  | record hkind _ _ _ => simp [hkind] at href
  | enumeration hkind => simp [hkind] at href
  | union hkind _ => simp [hkind] at href

namespace Walk

variable {g : Graph} {rootName : Option String} {w : Walk} {tasks : List Task}

/-- **Every task of a walk is for a node**, in a sound graph. -/
theorem Reached.lt_size (hvalid : g.validate = .ok ()) (h : Reached g rootName w tasks) :
    ∀ task ∈ tasks, task.node < g.size := by
  refine h.induct_walk (P := fun _ tasks => ∀ task ∈ tasks, task.node < g.size) ?_ ?_
  · simpa using ((Graph.validate_eq_ok_iff g).1 hvalid).1
  intro w task rest w' more _ ih hvisit t ht
  rcases List.mem_append.1 ht with hnew | hold
  · -- what a visit adds are pointers of the node that is visited
    have hid : task.node < g.size := ih task List.mem_cons_self
    obtain ⟨node, hnode, -⟩ := Graph.exists_dereferenced hvalid hid
    have hpointer := hvisit.sublist.subset (List.mem_map_of_mem hnew)
    exact Graph.lt_size_of_child hvalid hnode ((Graph.pointers_sublist hnode).subset hpointer)
  · exact ih t (List.mem_cons_of_mem _ hold)

theorem isProper_of_isNominal {i : NodeId} (h : g.IsNominal i) : g.IsProper i := by
  obtain ⟨node, hnode, hnominal⟩ := h
  refine ⟨node, hnode, fun target hkind => ?_⟩
  simp [Node.isNominal, hkind] at hnominal

/-- The base and the subtypes that an object declares are nodes and no references, in a sound
graph. -/
theorem isProper_of_mem_relatives (hvalid : g.validate = .ok ()) {id i : NodeId} {node : Node}
    (hnode : g.node? id = some node) (hi : i ∈ g.relatives node) : g.IsProper i := by
  have hchild : ∀ child ∈ node.kind.children, g.IsProper (g.dereference child) :=
    fun child hmem => Graph.exists_dereferenced hvalid (Graph.lt_size_of_child hvalid hnode hmem)
  cases hkind : node.kind with
  | object shape =>
    simp only [hkind, Kind.children] at hchild
    simp only [Graph.relatives, Node.shape?, hkind, List.mem_append, List.mem_map] at hi
    obtain ⟨base, hbase, rfl⟩ | hsubtype := hi
    · exact hchild base (List.mem_append_left _ (List.mem_append_left _ hbase))
    · cases hd : shape.discriminator with
      | none => simp [Graph.subtypeNodes, hd] at hsubtype
      | some d =>
        simp only [Graph.subtypeNodes, hd, Option.map_some, Option.getD_some] at hsubtype
        obtain ⟨m, hm, rfl⟩ := List.mem_map.1 hsubtype
        refine hchild m.target (List.mem_append_right _ ?_)
        simpa [hd] using List.mem_map_of_mem hm
  | _ => simp [Graph.relatives, Node.shape?, hkind] at hi

/-- **What is named is a node and no reference**, in a sound graph. -/
theorem Reached.isProper_of_named (hvalid : g.validate = .ok ()) (h : Reached g rootName w tasks)
    {i : NodeId} {name : String} (hi : w.resolver.nameOf i = some name) : g.IsProper i := by
  obtain hmem | hnominal | ⟨id, node, hnode, hrelative⟩ := h.accounts.kind i name hi
  · obtain ⟨c, hc, rfl⟩ := List.mem_map.1 hmem
    obtain ⟨node, hnode, hmade⟩ := h.made c hc
    exact hmade.isProper hnode
  · exact isProper_of_isNominal hnominal
  · exact isProper_of_mem_relatives hvalid hnode hrelative

/-- **What has a fault is a node and no reference**, in a sound graph. -/
theorem Reached.isProper_of_fault (hvalid : g.validate = .ok ()) (h : Reached g rootName w tasks)
    {f : Fault} (hf : f ∈ w.faults) : g.IsProper f.node := by
  obtain ⟨node, hnode, htrue⟩ := (h.explained hvalid).1.isTrue f hf
  refine ⟨node, hnode, fun target href => ?_⟩
  cases hkind : f.kind with
  | emptyUnion =>
    have hempty : node.kind = .union [] := by simpa only [hkind] using htrue
    simp [hempty] at href
  | unnamed =>
    simp only [hkind] at htrue
    exact htrue.1 target href

/-- **A class whose object has a base has the name of that**, in a sound graph. -/
theorem Reached.base_named (hvalid : g.validate = .ok ()) (h : Reached g rootName w tasks)
    {c : Contract} {record : Contract.Record} {shape : Schema.Shape} {base : NodeId}
    (hc : c ∈ w.contracts) (hbody : c.body = .record record)
    (hshape : g.shape? c.node = some shape) (hbase : shape.base = some base) :
    ∃ name, record.base = some name ∧ w.resolver.nameOf (g.dereference base) = some name := by
  obtain ⟨node, hnode, hmade⟩ := h.made c hc
  obtain ⟨node', hnode', hexplained⟩ := (h.explained hvalid).2 c hc
  obtain rfl := Option.some.inj (hnode.symm.trans hnode')
  rw [hbody] at hmade hexplained
  obtain ⟨shape', hkind, hexplained⟩ := hexplained
  obtain rfl : shape' = shape := by
    simpa [Graph.shape?, hnode, Node.shape?, hkind] using hshape
  -- the class was made with what resolving its base gave
  obtain ⟨name, hname⟩ : ∃ name, record.base = some name := by
    cases hmade with
    | @record _ w₀ _ _ _ _ _ _ _ _ _ hkind' hmadeBase _ _ =>
      obtain rfl : shape' = _ := by simpa [hkind] using hkind'
      obtain ⟨name, r', hok⟩ := w₀.resolver.resolve_base g base c.name
      refine ⟨name, ?_⟩
      simp only [Walk.base, hbase, name?, hok] at hmadeBase
      exact (Prod.mk.inj (Prod.mk.inj hmadeBase).2).1.symm
  have hnamed := hexplained.base base hbase
  rw [hname] at hnamed
  exact ⟨name, hname, hnamed⟩

end Walk

open Walk Resolver in
/-- **A sound graph has no dead ends.** Its root and all pointers of its nodes stand for nodes that
are no references. Hence references are rendered by the rules for the kinds of such nodes alone,
and a walk has tasks for such nodes only, in every state it comes to. What it names and what it
notes faults for are such nodes. Resolving a base never fails, and a class whose object has a base
has the name of the object that the base stands for, and so does the model of the class. -/
theorem no_dead_ends (g : Graph) (rootName : Option String) (hvalid : g.validate = .ok ()) :
    (∀ id, (id = g.root ∨ ∃ i node, g.node? i = some node ∧ id ∈ node.kind.children) →
      id < g.size ∧ g.StandsFor id (g.dereference id) ∧ g.IsProper (g.dereference id)) ∧
    (∀ (r : Resolver) (id : NodeId) (hint : Option String) r' out, id < g.size →
      (r.typeRef g id hint = some (r', out) ↔ ByKind g r id hint r' out)) ∧
    (∀ (r : Resolver) (base : NodeId) (typeName : String),
      ∃ name r', r.resolve g base (some (typeName ++ "Base")) = .ok (name, r')) ∧
    ∀ w tasks, Reached g rootName w tasks →
      (∀ task ∈ tasks, task.node < g.size ∧ g.IsProper (g.dereference task.node)) ∧
      (∀ i name, w.resolver.nameOf i = some name → g.IsProper i) ∧
      (∀ f ∈ w.faults, g.IsProper f.node) ∧
      ∀ c ∈ w.contracts, ∀ record, c.body = .record record → ∃ shape,
        g.shape? c.node = some shape ∧ ∀ base, shape.base = some base → ∃ name,
          record.base = some name ∧ w.resolver.nameOf (g.dereference base) = some name ∧
          (∃ shape', g.shape? (g.dereference base) = some shape') ∧
          ∀ s : Settings, (c.draft s).base = some name ∧ ∃ m : Model.Class,
            (c.draft s).template = Template.Name.class ∧ (c.draft s).model = m.toValue ∧
            m.baseName = some name := by
  refine ⟨?pointers, ?rendering, ?bases, ?walks⟩
  case pointers =>
    rintro id (rfl | ⟨i, node, hnode, hchild⟩)
    · have hroot := ((Graph.validate_eq_ok_iff g).1 hvalid).1
      exact ⟨hroot, Graph.standsFor_dereference hvalid _, Graph.exists_dereferenced hvalid hroot⟩
    · have hid := Graph.lt_size_of_child hvalid hnode hchild
      exact ⟨hid, Graph.standsFor_dereference hvalid _, Graph.exists_dereferenced hvalid hid⟩
  case rendering => exact fun r id hint r' out hid => typeRef_eq_some_iff hvalid hid
  case bases => exact fun r base typeName => r.resolve_base g base typeName
  case walks =>
    intro w tasks hw
    refine ⟨fun task htask => ?_, fun i name => hw.isProper_of_named hvalid,
      fun f => hw.isProper_of_fault hvalid, fun c hc record hbody => ?_⟩
    · have hid := hw.lt_size hvalid task htask
      exact ⟨hid, Graph.exists_dereferenced hvalid hid⟩
    · obtain ⟨node, hnode, hmade⟩ := hw.made c hc
      rw [hbody] at hmade
      cases hmade with
      | @record shape _ _ _ _ _ _ _ _ _ _ hkind _ _ _ =>
        have hshape : g.shape? c.node = some shape := by
          simp [Graph.shape?, hnode, Node.shape?, hkind]
        refine ⟨shape, hshape, fun base hbase => ?_⟩
        obtain ⟨name, hname, hnamed⟩ := hw.base_named hvalid hc hbody hshape hbase
        refine ⟨name, hname, hnamed, Graph.exists_shape_of_base hvalid hshape hbase, fun s => ?_⟩
        obtain ⟨htemplate, hdraft, hmodel⟩ := Contract.draft_of_record s hbody
        exact ⟨hdraft.trans hname, _, htemplate, hmodel, hname⟩

/-- A car that is the root through a reference, with a base, wheels and fuel. The base and the
wheels are behind references too; there is no name for the paint. -/
def garage : Graph where
  root := 6
  nodes := #[
    { Node.ofKind (.object ⟨[⟨"wheels", 1, true, false, false, none, []⟩,
        ⟨"fuel", 3, true, false, false, none, []⟩, ⟨"?", 5, true, false, false, none, []⟩],
        some 7, false, none⟩) with nameHint := some "Car" },
    Node.ofKind (.array 2), Node.ofKind (.reference 9), Node.ofKind (.union [4, 2]),
    Node.ofKind (.primitive .string none), Node.ofKind (.enumeration [.string "red"]),
    Node.ofKind (.reference 0), Node.ofKind (.reference 8),
    Node.ofKind (.object ⟨[], none, false, none⟩),
    { Node.ofKind (.object ⟨[], none, false, none⟩) with nameHint := some "Wheel" }]

/-- The walk through the garage ends with names for the car, its base and its wheels, and with a
fault for the paint, and all of these are nodes. -/
theorem no_dead_ends_garage :
    garage.validate = .ok () ∧ ∃ w, Walk.Reached garage none w [] ∧
      w.contracts.map (fun c => (c.name, c.relatives)) =
        [("Car", ["CarBase"]), ("CarBase", []), ("Wheel", [])] ∧
      w.faults = [⟨5, some "?", .unnamed⟩] ∧
      (∀ i name, w.resolver.nameOf i = some name → garage.IsProper i) ∧ garage.IsProper 5 ∧
      ∀ c ∈ w.contracts, ∀ record, c.body = .record record → ∃ shape,
        garage.shape? c.node = some shape ∧ ∀ base, shape.base = some base → ∃ name,
          record.base = some name ∧ w.resolver.nameOf (garage.dereference base) = some name ∧
          (∃ shape', garage.shape? (garage.dereference base) = some shape') ∧
          ∀ s : Settings, (c.draft s).base = some name ∧ ∃ m : Model.Class,
            (c.draft s).template = Template.Name.class ∧ (c.draft s).model = m.toValue ∧
            m.baseName = some name := by
  have hvalid : garage.validate = .ok () := by decide +kernel
  have hplan : (Plan.ofGraph garage none).map (fun p =>
      (p.contracts.map (fun c => (c.name, c.relatives)), p.faults)) =
      some ([("Car", ["CarBase"]), ("CarBase", []), ("Wheel", [])],
        [⟨5, some "?", .unnamed⟩]) := by
    decide +kernel
  obtain ⟨p, hp, hresult⟩ := Option.map_eq_some_iff.1 hplan
  obtain ⟨w, hw, hcontracts, hfaults, -⟩ := Plan.reached_of_ofGraph hp
  rw [hcontracts, hfaults, Prod.mk.injEq] at hresult
  obtain ⟨-, -, -, hwalks⟩ := no_dead_ends garage none hvalid
  obtain ⟨-, hnamed, hfaulted, hbases⟩ := hwalks w [] hw
  have hpaint : (⟨5, some "?", .unnamed⟩ : Fault) ∈ w.faults := by simp [hresult.2]
  exact ⟨hvalid, w, hw, hresult.1, hresult.2, hnamed, hfaulted _ hpaint, hbases⟩

end ContractGen
