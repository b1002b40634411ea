import ContractGen.Proofs.Bodies
import ContractGen.Proofs.TemplateModels
import ContractGen.Proofs.Verdict

/-!
# Telling properties

The property that tells the subtypes of an object apart is declared by the object itself or by one
of those that it inherits from. `Walk.tellingProperty` searches for it along the chain of base
types, one object at a time and no more objects than the graph has nodes. There is one equation for
each thing that can happen at an object: it has a discriminator, it inherits from another object, or
the chain ends there. From these follows what the search finds (`tellingProperty_eq_some_iff`), and
that its bound cuts nothing off (`tellingProperty_add`), wherever base types run in no circle.

The property that was found is no member of the class. All others that the object declares are
(`Contract.Made.shows`).
-/

namespace ContractGen

open Relation (ReflTransGen)
open Schema (Graph Node NodeId Discriminator)
open Contract (Member)

/-! ### Discriminators along a chain of base types -/

theorem Schema.Node.shape?_eq_some_iff {node : Node} {shape : Schema.Shape} :
    node.shape? = some shape ↔ node.kind = .object shape := by
  cases hkind : node.kind <;> simp [shape?, hkind]

namespace Schema.Graph

variable {g : Graph} {id a b : NodeId} {d d' : Discriminator}

theorem dereference_of_shape? {shape : Shape} (h : g.shape? id = some shape) :
    g.dereference id = id := by
  obtain ⟨node, hnode, hshape⟩ := Option.bind_eq_some_iff.1 h
  refine dereference_of_target?_eq_none (target?_eq_none_of_kind hnode fun target hkind => ?_)
  rw [Node.shape?_eq_some_iff.1 hshape] at hkind
  cases hkind

/-- The discriminator that an object declares. -/
def discriminator? (g : Graph) (id : NodeId) : Option Discriminator :=
  (g.shape? id).bind (·.discriminator)

/-- `a` inherits from `b` and has no discriminator of its own. -/
def PassesOn (g : Graph) (a b : NodeId) : Prop := g.discriminator? a = none ∧ g.Inherits a b

/-- `a` is the first object with a discriminator along the chain of base types from `id`, and `d` is
its discriminator. -/
def FirstTelling (g : Graph) (id a : NodeId) (d : Discriminator) : Prop :=
  ReflTransGen g.PassesOn id a ∧ g.discriminator? a = some d

theorem firstTelling_of_own (h : g.discriminator? id = some d) :
    g.FirstTelling id a d' ↔ a = id ∧ d' = d := by
  constructor
  · rintro ⟨hreach, hd'⟩
    rcases ReflTransGen.cases_head hreach with rfl | ⟨b, hb, -⟩
    · exact ⟨rfl, Option.some.inj (hd'.symm.trans h)⟩
    · rw [hb.1] at h
      cases h
  · rintro ⟨rfl, rfl⟩
    exact ⟨.refl, h⟩

theorem firstTelling_of_passesOn (h : g.PassesOn id b) :
    g.FirstTelling id a d ↔ g.FirstTelling b a d := by
  constructor
  · rintro ⟨hreach, hd⟩
    rcases ReflTransGen.cases_head hreach with rfl | ⟨c, hc, hrest⟩
    · rw [h.1] at hd
      cases hd
    · obtain rfl := inherits_rightUnique hc.2 h.2
      exact ⟨hrest, hd⟩
  · rintro ⟨hreach, hd⟩
    exact ⟨.head h hreach, hd⟩

theorem not_firstTelling (hnone : g.discriminator? id = none) (hend : ∀ b, ¬ g.Inherits id b) :
    ¬ g.FirstTelling id a d := by
  rintro ⟨hreach, hd⟩
  rcases ReflTransGen.cases_head hreach with rfl | ⟨b, hb, -⟩
  · rw [hnone] at hd
    cases hd
  · exact hend b hb.2

theorem FirstTelling.inherits (h : g.FirstTelling id a d) : ReflTransGen g.Inherits id a :=
  ReflTransGen.mono (fun _ _ hpass => hpass.2) _ _ h.1

/-- If any object on the chain has a discriminator, then there is a first one. -/
theorem exists_firstTelling (h : ReflTransGen g.Inherits id a) (hd : g.discriminator? a = some d) :
    ∃ b d', g.FirstTelling id b d' := by
  induction h using ReflTransGen.head_induction_on with
  | refl => exact ⟨a, d, .refl, hd⟩
  | @head c e hce _ ih =>
    cases hc : g.discriminator? c with
    | some d' => exact ⟨c, d', .refl, hc⟩
    | none =>
      obtain ⟨b, d', hb⟩ := ih
      exact ⟨b, d', (firstTelling_of_passesOn ⟨hc, hce⟩).2 hb⟩

end Schema.Graph

/-! ### The search -/

namespace Walk

variable {g : Graph} {id : NodeId} {steps : Nat}

/-- At an object the search takes its discriminator, or else goes on at its base. -/
theorem tellingProperty_of_shape? (steps : Nat) {shape : Schema.Shape}
    (h : g.shape? id = some shape) :
    tellingProperty g (steps + 1) id = (shape.discriminator.map Discriminator.propertyName).or
      (shape.base.bind fun base => tellingProperty g steps (g.dereference base)) := by
  cases hd : shape.discriminator <;> simp [tellingProperty, h, hd]

theorem tellingProperty_of_shape?_eq_none (steps : Nat) (h : g.shape? id = none) :
    tellingProperty g steps id = none := by
  cases steps with
  | zero => rfl
  | succ steps => rw [tellingProperty, h]

theorem tellingProperty_of_own {d : Discriminator} (h : g.discriminator? id = some d) :
    tellingProperty g (steps + 1) id = some d.propertyName := by
  obtain ⟨shape, hshape, hd⟩ := Option.bind_eq_some_iff.1 h
  rw [tellingProperty_of_shape? steps hshape, hd, Option.map_some, Option.some_or]

theorem tellingProperty_of_passesOn {b : NodeId} (h : g.PassesOn id b) :
    tellingProperty g (steps + 1) id = tellingProperty g steps b := by
  obtain ⟨hnone, base, hbase, rfl, -⟩ := h
  obtain ⟨shape, hshape, hbase⟩ := Option.bind_eq_some_iff.1 hbase
  have hd : shape.discriminator = none := by simpa [Graph.discriminator?, hshape] using hnone
  rw [tellingProperty_of_shape? steps hshape, hd, hbase, Option.map_none, Option.none_or,
    Option.bind_some]

theorem tellingProperty_of_end (hnone : g.discriminator? id = none)
    (hend : ∀ b, ¬ g.Inherits id b) : tellingProperty g steps id = none := by
  cases hshape : g.shape? id with
  | none => exact tellingProperty_of_shape?_eq_none steps hshape
  | some shape =>
    cases steps with
    | zero => rfl
    | succ steps =>
      have hd : shape.discriminator = none := by simpa [Graph.discriminator?, hshape] using hnone
      rw [tellingProperty_of_shape? steps hshape, hd, Option.map_none, Option.none_or,
        Option.bind_eq_none_iff]
      -- a base that is no object ends the search like no base
      intro base hbase
      refine tellingProperty_of_shape?_eq_none steps ?_
      by_contra hobject
      refine hend _ ⟨base, ?_, rfl, Option.isSome_iff_ne_none.2 hobject⟩
      simp [Graph.base?, hshape, hbase]

/-- What holds at the end of a chain, at an object with a discriminator, and at an object for which
it holds at the one it inherits from, holds all along a chain that runs in no circle. -/
theorem tellingProperty_rule {P : Nat → NodeId → Prop}
    (last : ∀ steps a, g.discriminator? a = none → (∀ b, ¬ g.Inherits a b) → P steps a)
    (own : ∀ steps a d, g.discriminator? a = some d → P (steps + 1) a)
    (passed : ∀ steps a b, g.PassesOn a b → P steps b → P (steps + 1) a)
    (h : AcyclicFrom g.Inherits id) (hsteps : g.size ≤ steps) : P steps id := by
  refine h.bounded (n := g.size) (P := P) ?_ ?_ hsteps
  · intro steps a hout
    have hshape : g.shape? a = none := by simp [Graph.shape?, Graph.node?_eq_none_iff.2 hout]
    refine last steps a (by simp [Graph.discriminator?, hshape]) fun b hb => ?_
    exact absurd hb.lt_size (Nat.not_lt.2 hout)
  · intro steps a _ ih
    cases hd : g.discriminator? a with
    | some d => exact own steps a d hd
    | none =>
      by_cases hnext : ∃ b, g.Inherits a b
      · obtain ⟨b, hb⟩ := hnext
        exact passed steps a b ⟨hd, hb⟩ (ih b hb)
      · exact last (steps + 1) a hd fun b hb => hnext ⟨b, hb⟩

/-- **The bound of the search through base types cuts nothing off**, if these run in no circle. -/
theorem tellingProperty_add (h : AcyclicFrom g.Inherits id) (k : Nat) :
    tellingProperty g (g.size + k) id = tellingProperty g g.size id := by
  refine tellingProperty_rule
    (P := fun steps a => tellingProperty g (steps + k) a = tellingProperty g steps a) ?_ ?_ ?_ h
    (Nat.le_refl g.size)
  · intro steps a hnone hend
    rw [tellingProperty_of_end hnone hend, tellingProperty_of_end hnone hend]
  · intro steps a d hd
    rw [Nat.add_right_comm, tellingProperty_of_own hd, tellingProperty_of_own hd]
  · intro steps a b hpass ih
    rw [Nat.add_right_comm, tellingProperty_of_passesOn hpass, tellingProperty_of_passesOn hpass,
      ih]

/-- **The search finds the first discriminator of the chain.** -/
theorem tellingProperty_eq_some_iff (h : AcyclicFrom g.Inherits id) {name : String} :
    tellingProperty g g.size id = some name ↔
      ∃ a d, g.FirstTelling id a d ∧ d.propertyName = name := by
  refine tellingProperty_rule (P := fun steps id => tellingProperty g steps id = some name ↔
    ∃ a d, g.FirstTelling id a d ∧ d.propertyName = name) ?_ ?_ ?_ h (Nat.le_refl g.size)
  · intro steps a hnone hend
    simp [tellingProperty_of_end hnone hend, Graph.not_firstTelling hnone hend]
  · intro steps a d hd
    simp [tellingProperty_of_own hd, Graph.firstTelling_of_own hd]
  · intro steps a b hpass ih
    simpa [tellingProperty_of_passesOn hpass, Graph.firstTelling_of_passesOn hpass] using ih

theorem tellingProperty_eq_none_iff (h : AcyclicFrom g.Inherits id) :
    tellingProperty g g.size id = none ↔
      ∀ a, ReflTransGen g.Inherits id a → g.discriminator? a = none := by
  rw [Option.eq_none_iff_forall_ne_some]
  simp only [ne_eq, tellingProperty_eq_some_iff h, not_exists, not_and]
  constructor
  · intro hno a ha
    by_contra hsome
    obtain ⟨d, hd⟩ := Option.ne_none_iff_exists'.1 hsome
    obtain ⟨b, d', hfirst⟩ := Graph.exists_firstTelling ha hd
    exact hno d'.propertyName b d' hfirst rfl
  · rintro hno name a d hfirst rfl
    have hnone := hno a hfirst.inherits
    rw [hfirst.2] at hnone
    cases hnone

end Walk

/-! ### Classes -/

/-- What the model of a member shows of the property that it is for. -/
def Model.Property.shown (m : Model.Property) : String × String × Bool × Bool :=
  (m.rawName, m.jsonName, m.required, m.nullable)

/-- What a class shows of a property. -/
def Schema.Property.shown (p : Schema.Property) : String × String × Bool × Bool :=
  (p.name, stringLiteral p.name, p.required, p.nullable)

/-- A class shows the properties of its object, in order, but for the telling one. -/
theorem Contract.Made.shows {g : Graph} {id : NodeId} {node : Node} {name : String}
    {record : Contract.Record} (h : Contract.Made g id node name (.record record))
    (annotations : Bool) : ∃ shape, node.kind = .object shape ∧
      (Model.ofRecord annotations name record).properties.map Model.Property.shown =
        (shape.properties.filter fun p => Walk.inheritedProperty g id != some p.name).map
          Schema.Property.shown := by
  cases h with
  | @record shape _ _ _ _ _ members _ _ _ _ hkind _ hmembers _ =>
    refine ⟨shape, hkind, ?_⟩
    calc _ = (Contract.distinctMembers name members).map
          (fun m => (Model.ofMember annotations name m).shown) := List.map_map
      _ = members.map fun m => (Model.ofMember annotations name m).shown :=
        Contract.map_distinctMembers _ (fun _ _ => rfl) name members
      _ = _ := Walk.map_members (fun _ _ => rfl) hmembers

/-- **The telling property of an object.** In a sound graph it is that of the first object with a
discriminator along the chain of base types, which starts at the object itself, and there is none
just if no object of the chain has a discriminator; the search is never cut short. In every graph,
sound or not, and in every state of a walk, the model of a class has the properties that its object
declares, each once and in their order, but for those with the name of the telling one. -/
theorem telling_properties (g : Graph) (s : Settings) :
    (g.validate = .ok () → ∀ id shape, g.shape? id = some shape →
      (∀ name, Walk.inheritedProperty g id = some name ↔
        ∃ a d, g.FirstTelling id a d ∧ d.propertyName = name) ∧
      (Walk.inheritedProperty g id = none ↔
        ∀ a, ReflTransGen g.Inherits id a → g.discriminator? a = none) ∧
      ∀ k, Walk.tellingProperty g (g.size + k) id = Walk.inheritedProperty g id) ∧
    ∀ w tasks, Walk.Reached g s.rootTypeName w tasks → ∀ c ∈ w.contracts, ∀ record,
      c.body = .record record → ∃ shape m, g.shape? c.node = some shape ∧
        (c.draft s).template = Template.Name.class ∧
        (c.draft s).model = Model.Class.toValue m ∧
        m.properties.map Model.Property.shown =
          (shape.properties.filter fun p => Walk.inheritedProperty g c.node != some p.name).map
            Schema.Property.shown := by
  constructor
  · intro hvalid id shape hshape
    have hacyclic := Graph.acyclicFrom_inherits hvalid id
    rw [Walk.inheritedProperty, Graph.dereference_of_shape? hshape]
    exact ⟨fun name => Walk.tellingProperty_eq_some_iff hacyclic,
      Walk.tellingProperty_eq_none_iff hacyclic, Walk.tellingProperty_add hacyclic⟩
  · intro w tasks hw c hc record hbody
    obtain ⟨node, hnode, hmade⟩ := hw.made c hc
    rw [hbody] at hmade
    obtain ⟨shape, hkind, hshown⟩ := hmade.shows s.nullableAnnotations
    obtain ⟨htemplate, -, hmodel⟩ := Contract.draft_of_record s hbody
    refine ⟨shape, Model.ofRecord s.nullableAnnotations c.name record, ?_, htemplate, hmodel,
      hshown⟩
    rw [Graph.shape?, hnode, Option.bind_some, Schema.Node.shape?_eq_some_iff.2 hkind]

/-- The names that the members of a class have in the data. -/
def Contract.dataNames (c : Contract) : List String :=
  match c.body with
  | .record record => record.members.map Member.rawName
  | .enumeration _ => []
  | .union _ => []

/-- A puppy, which is a dog, which is an animal. The species of animals tells them apart, and the
chain of base types goes through all nodes. -/
def litter : Graph where
  root := 0
  nodes := #[
    { Node.ofKind (.object {
        properties := [⟨"species", 0, true, false, false, none, []⟩,
          ⟨"mother", 1, true, false, false, none, []⟩, ⟨"Species", 2, true, false, false, none, []⟩]
        base := some 1
        isAbstract := false
        discriminator := none }) with nameHint := some "Puppy" },
    { Node.ofKind (.object {
        properties := [⟨"puppies", 0, false, false, false, none, []⟩,
          ⟨"species", 2, true, false, false, none, []⟩]
        base := some 2
        isAbstract := false
        discriminator := none }) with nameHint := some "Dog" },
    { Node.ofKind (.object {
        properties := [⟨"species", 0, true, false, false, none, []⟩]
        base := none
        isAbstract := true
        discriminator := some ⟨"species", [⟨"dog", 1⟩]⟩ }) with nameHint := some "Animal" }]

/-- The puppy has its telling property from the animal, which no class of the litter shows. -/
theorem telling_properties_litter :
    litter.validate = .ok () ∧ Walk.inheritedProperty litter 0 = some "species" ∧
      ∃ w, Walk.Reached litter none w [] ∧
        w.contracts.map (fun c => (c.name, c.dataNames)) =
          [("Puppy", ["mother", "Species"]), ("Dog", ["puppies"]), ("Animal", [])] ∧
        ∀ c ∈ w.contracts, ∀ record, c.body = .record record → ∃ shape m,
          litter.shape? c.node = some shape ∧ (c.draft {}).template = Template.Name.class ∧
          (c.draft {}).model = Model.Class.toValue m ∧
          m.properties.map Model.Property.shown =
            (shape.properties.filter fun p =>
              Walk.inheritedProperty litter c.node != some p.name).map Schema.Property.shown := by
  have hvalid : litter.validate = .ok () := rfl
  obtain ⟨hfound, hshown⟩ := telling_properties litter {}
  have hfirst : litter.FirstTelling 0 2 ⟨"species", [⟨"dog", 1⟩]⟩ := by
    have hdog : litter.PassesOn 0 1 := ⟨rfl, 1, rfl, rfl, rfl⟩
    have hanimal : litter.PassesOn 1 2 := ⟨rfl, 2, rfl, rfl, rfl⟩
    exact ⟨.head hdog (.single hanimal), rfl⟩
  have hplan : (Plan.ofGraph litter none).map (fun p =>
      p.contracts.map fun c => (c.name, c.dataNames)) =
      some [("Puppy", ["mother", "Species"]), ("Dog", ["puppies"]), ("Animal", [])] := by
    rfl
  obtain ⟨p, hp, hnames⟩ := Option.map_eq_some_iff.1 hplan
  obtain ⟨w, hw, hcontracts, -, -⟩ := Plan.reached_of_ofGraph hp
  rw [hcontracts] at hnames
  refine ⟨hvalid, ?_, w, hw, hnames, hshown w [] hw⟩
  exact ((hfound hvalid 0 _ rfl).1 "species").2 ⟨2, _, hfirst, rfl⟩

end ContractGen
