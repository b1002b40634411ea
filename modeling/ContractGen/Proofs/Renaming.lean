import ContractGen.Proofs.Ending
import ContractGen.Proofs.TellingProperties

/-!
# Graphs in other graphs

A graph can be found in another one with its nodes in other places: the other one may hold them in
another order, or hold further nodes. `Graph.Embeds f g g'` covers both, where `f` says at which
place each node is found. What is read off the nodes of a sound graph is the same in the other one:
what a reference stands for (`Embeds.dereference`), which property tells subtypes apart
(`Embeds.inheritedProperty`), and which node an object declares in place
(`Embeds.declaresInPlace`).
-/

namespace ContractGen

open Schema (Graph Node NodeId Kind)

/-! ### Renaming nodes -/

namespace Schema

/-- The property with its pointer renamed. -/
def Property.rename (f : NodeId → NodeId) (p : Property) : Property :=
  { p with schema := f p.schema }

/-- The mapping with its pointer renamed. -/
def Mapping.rename (f : NodeId → NodeId) (m : Mapping) : Mapping := { m with target := f m.target }

/-- The discriminator with its pointers renamed. -/
def Discriminator.rename (f : NodeId → NodeId) (d : Discriminator) : Discriminator :=
  { d with mapping := d.mapping.map (Mapping.rename f) }

/-- The declarations of an object with their pointers renamed. -/
def Shape.rename (f : NodeId → NodeId) (shape : Shape) : Shape :=
  { shape with
    properties := shape.properties.map (Property.rename f)
    base := shape.base.map f
    discriminator := shape.discriminator.map (Discriminator.rename f) }

/-- What a node is, with its pointers renamed. -/
def Kind.rename (f : NodeId → NodeId) : Kind → Kind
  | .object shape => .object (shape.rename f)
  | .enumeration values => .enumeration values
  | .union variants => .union (variants.map f)
  | .primitive type format => .primitive type format
  | .array items => .array (f items)
  | .reference target => .reference (f target)

/-- The node with its pointers renamed. -/
def Node.rename (f : NodeId → NodeId) (node : Node) : Node :=
  { node with kind := node.kind.rename f }

@[simp]
theorem Node.kind_rename (f : NodeId → NodeId) (node : Node) :
    (node.rename f).kind = node.kind.rename f := rfl

@[simp]
theorem Node.declaredName_rename (f : NodeId → NodeId) (node : Node) :
    (node.rename f).declaredName = node.declaredName := rfl

@[simp]
theorem Node.summary_rename (f : NodeId → NodeId) (node : Node) :
    (node.rename f).summary = node.summary := rfl

theorem Node.shape?_rename (f : NodeId → NodeId) (node : Node) :
    (node.rename f).shape? = node.shape?.map (Shape.rename f) := by
  cases hkind : node.kind <;> simp [shape?, hkind, Kind.rename]

theorem Node.rename_id (node : Node) : node.rename (fun i => i) = node := by
  have hmapping : Mapping.rename (fun i => i) = id := rfl
  have hdiscriminator : Discriminator.rename (fun i => i) = id := by
    funext d
    simp [Discriminator.rename, hmapping]
  have hproperty : Property.rename (fun i => i) = id := rfl
  have hkind : node.kind.rename (fun i => i) = node.kind := by
    cases node.kind <;> simp [Kind.rename, Shape.rename, hproperty, hdiscriminator]
  rw [rename, hkind]

end Schema

/-! ### Types in place -/

/-- Whether the object at a position declares a node in place, as the type of a property. -/
def Schema.Graph.declaresInPlace (g : Graph) (k i : NodeId) : Bool :=
  (g.shape? k).any fun shape =>
    shape.properties.any fun p => p.isInline && g.dereference p.schema == i

theorem Schema.Graph.lt_size_of_declaresInPlace {g : Graph} {k i : NodeId}
    (h : g.declaresInPlace k i = true) : k < g.size := by
  obtain ⟨shape, hshape, -⟩ := (Option.any_eq_true _ _).1 h
  obtain ⟨node, hnode, -⟩ := Option.bind_eq_some_iff.1 hshape
  exact lt_size_of_node? hnode

theorem Walk.mem_inlineNodes {g : Graph} {i : NodeId} :
    i ∈ inlineNodes g ↔ ∃ k, g.declaresInPlace k i = true := by
  simp only [inlineNodes, List.mem_flatMap, Array.mem_toList_iff, Array.mem_iff_getElem?]
  constructor
  · rintro ⟨node, ⟨k, hk⟩, hmem⟩
    refine ⟨k, ?_⟩
    have hnode : g.node? k = some node := hk
    cases hshape : node.shape? with
    | none => simp [hshape] at hmem
    | some shape =>
      simp only [hshape, List.mem_map, List.mem_filter] at hmem
      obtain ⟨p, ⟨hp, hinline⟩, rfl⟩ := hmem
      simp only [Graph.declaresInPlace, Graph.shape?, hnode, Option.bind_some, hshape,
        Option.any_some, List.any_eq_true]
      exact ⟨p, hp, by simp [hinline]⟩
  · rintro ⟨k, hk⟩
    simp only [Graph.declaresInPlace, Option.any_eq_true, List.any_eq_true, Bool.and_eq_true,
      beq_iff_eq] at hk
    obtain ⟨shape, hshape, p, hp, hinline, rfl⟩ := hk
    obtain ⟨node, hnode, hshape⟩ := Option.bind_eq_some_iff.1 hshape
    refine ⟨node, ⟨k, hnode⟩, ?_⟩
    simp only [hshape, List.mem_map, List.mem_filter]
    exact ⟨p, ⟨hp, hinline⟩, rfl⟩

/-! ### Embeddings -/

/-- A sound graph is found in another one. -/
structure Schema.Graph.Embeds (f : NodeId → NodeId) (g g' : Graph) : Prop where
  /-- The graph is sound. -/
  valid : g.validate = .ok ()
  /-- Different nodes are found in different places. -/
  injective : Function.Injective f
  /-- The root is found. -/
  root : g'.root = f g.root
  /-- Every node is found, and points at the places of what it pointed at. -/
  node : ∀ i node, g.node? i = some node → g'.node? (f i) = some (node.rename f)

namespace Schema.Graph.Embeds

variable {f : NodeId → NodeId} {g g' : Graph} {i : NodeId} (e : Embeds f g g')

include e

theorem size_le : g.size ≤ g'.size := by
  have hnodup : ((List.range g.size).map f).Nodup := List.nodup_range.map e.injective
  have hlt : ∀ x ∈ (List.range g.size).map f, x < g'.size := by
    intro x hx
    obtain ⟨i, hi, rfl⟩ := List.mem_map.1 hx
    obtain ⟨node, hnode⟩ := exists_node_of_lt (List.mem_range.1 hi)
    exact lt_size_of_node? (e.node i node hnode)
  simpa using length_le_of_nodup hnodup hlt

theorem root_lt : g.root < g.size := ((validate_eq_ok_iff g).1 e.valid).1

theorem node?_eq (hi : i < g.size) : g'.node? (f i) = (g.node? i).map (Node.rename f) := by
  obtain ⟨node, hnode⟩ := exists_node_of_lt hi
  rw [hnode, e.node i node hnode]
  rfl

theorem child_lt {node : Node} {child : NodeId} (hnode : g.node? i = some node)
    (hchild : child ∈ node.kind.children) : child < g.size :=
  lt_size_of_child e.valid hnode hchild

theorem target?_eq (hi : i < g.size) : g'.target? (f i) = (g.target? i).map f := by
  obtain ⟨node, hnode⟩ := exists_node_of_lt hi
  simp only [target?, e.node?_eq hi, hnode, Option.map_some, Node.kind_rename]
  cases node.kind <;> rfl

theorem shape?_eq (hi : i < g.size) : g'.shape? (f i) = (g.shape? i).map (Shape.rename f) := by
  obtain ⟨node, hnode⟩ := exists_node_of_lt hi
  simp [shape?, e.node?_eq hi, hnode, Node.shape?_rename]

/-- **A reference stands for the same node.** -/
theorem dereference (hi : i < g.size) : g'.dereference (f i) = f (g.dereference i) := by
  obtain ⟨hpath, hend⟩ := standsFor_dereference e.valid i
  refine StandsFor.dereference_eq ⟨hpath.lift f fun a b hab => ?_, ?_⟩
  · show g'.target? (f a) = some (f b)
    rw [e.target?_eq (lt_size_of_target? hab), hab]
    rfl
  · rw [e.target?_eq (dereference_lt_size e.valid hi), hend]
    rfl

theorem dereference_lt (hi : i < g.size) : g.dereference i < g.size :=
  dereference_lt_size e.valid hi

theorem node?_dereference (hi : i < g.size) :
    g'.node? (g'.dereference (f i)) = (g.node? (g.dereference i)).map (Node.rename f) := by
  rw [e.dereference hi, e.node?_eq (e.dereference_lt hi)]

theorem property_lt {shape : Shape} {p : Property} (hshape : g.shape? i = some shape)
    (hp : p ∈ shape.properties) : p.schema < g.size := by
  obtain ⟨node, hnode, hkind⟩ := Option.bind_eq_some_iff.1 hshape
  have hmem : p.schema ∈ shape.properties.map (·.schema) := List.mem_map_of_mem hp
  refine e.child_lt hnode ?_
  simp only [Node.shape?_eq_some_iff.1 hkind, Kind.children, List.mem_append]
  exact .inl (.inr hmem)

theorem base_lt {shape : Shape} {base : NodeId} (hshape : g.shape? i = some shape)
    (hbase : shape.base = some base) : base < g.size := by
  obtain ⟨node, hnode, hkind⟩ := Option.bind_eq_some_iff.1 hshape
  refine e.child_lt hnode ?_
  simp [Node.shape?_eq_some_iff.1 hkind, Kind.children, hbase]

theorem tellingProperty (hi : i < g.size) (steps : Nat) :
    Walk.tellingProperty g' steps (f i) = Walk.tellingProperty g steps i := by
  induction steps generalizing i with
  | zero => rfl
  | succ steps ih =>
    simp only [Walk.tellingProperty, e.shape?_eq hi]
    cases hshape : g.shape? i with
    | none => rfl
    | some shape =>
      cases hd : shape.discriminator with
      | some d => simp [Shape.rename, Discriminator.rename, hd]
      | none =>
        cases hbase : shape.base with
        | none => simp [Shape.rename, hd, hbase]
        | some base =>
          have hlt : base < g.size := e.base_lt hshape hbase
          simp [Shape.rename, hd, hbase, e.dereference hlt, ih (e.dereference_lt hlt)]

/-- **The same property tells the subtypes of an object apart.** -/
theorem inheritedProperty (hi : i < g.size) :
    Walk.inheritedProperty g' (f i) = Walk.inheritedProperty g i := by
  -- the base types run in no circle, so the larger graph is searched no further
  obtain ⟨k, hk⟩ := Nat.exists_eq_add_of_le e.size_le
  rw [Walk.inheritedProperty, Walk.inheritedProperty, e.dereference hi,
    e.tellingProperty (e.dereference_lt hi), hk,
    Walk.tellingProperty_add (acyclicFrom_inherits e.valid _)]

/-- **An object declares the same nodes in place.** -/
theorem declaresInPlace {k : NodeId} (hk : k < g.size) (i : NodeId) :
    g'.declaresInPlace (f k) (f i) = g.declaresInPlace k i := by
  simp only [Graph.declaresInPlace, e.shape?_eq hk]
  cases hshape : g.shape? k with
  | none => rfl
  | some shape =>
    have hproperty : ∀ p ∈ shape.properties,
        (g'.dereference (f p.schema) == f i) = (g.dereference p.schema == i) := by
      intro p hp
      rw [e.dereference (e.property_lt hshape hp), e.injective.beq_eq]
    simp only [Option.map_some, Option.any_some, Shape.rename, List.any_map]
    rw [Bool.eq_iff_iff, List.any_eq_true, List.any_eq_true]
    simp only [Function.comp_apply, Property.rename]
    exact exists_congr fun p => and_congr_right fun hp => by rw [hproperty p hp]

end Schema.Graph.Embeds

end ContractGen
