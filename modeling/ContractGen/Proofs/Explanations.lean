import ContractGen.Proofs.TemplateModels
import ContractGen.Proofs.Verdict
import ContractGen.Proofs.Visits

/-!
# What faults explain

A node with a problem is left out or replaced by the type of every value, and a fault is noted.
Faults come on two ways: as the outcome of naming a node or rendering a reference, and as pending
faults of a resolver, for cases that were replaced within a union in place. Both end up in the
faults of the walk, each problem once.

Two things are proved of that. Faults are *true* (`Fault.IsTrue`): the node has the problem. And
they are complete: every type in a contract is that of its node, or some fault is for the node
that failed (`TypeRef.Explained`), and what a class leaves out is explained in the same way
(`Contract.Explained`). Descending keeps both (`descend_told`), so do the steps that build a
contract, and so does a walk (`Walk.Reached.explained`). A model has the texts of what its contract
declares, so models are explained as well (`Draft.Explained`).
-/

namespace ContractGen

open Schema (Graph Node NodeId Kind)
open Contract (Member Subtype Hierarchy Record Case)
open Relation (ReflTransGen)

/-! ### Faults -/

namespace Fault

/-- The fault says what is the case: its node is a union of nothing, or the node is no reference
and neither the name that it declares nor the hint gives an identifier. -/
def IsTrue (g : Graph) (f : Fault) : Prop :=
  ∃ node, g.node? f.node = some node ∧
    match f.kind with
    | .emptyUnion => node.kind = .union []
    | .unnamed => (∀ target, node.kind ≠ .reference target) ∧
        ∀ name ∈ node.declaredName.toList ++ f.hint.toList, Identifier.typeName? name = none

/-- Some of the faults is for the node. -/
def Blames (faults : List Fault) (id : NodeId) : Prop := ∃ f ∈ faults, f.node = id

theorem Blames.mono {faults faults' : List Fault} (h : faults ⊆ faults') {id : NodeId}
    (hid : Blames faults id) : Blames faults' id := by
  obtain ⟨f, hf, hnode⟩ := hid
  exact ⟨f, h hf, hnode⟩

theorem isTrue_of_resolve {g : Graph} {r : Resolver} {id : NodeId} {hint : Option String}
    {f : Fault} {node : Node} (hnode : g.node? (g.dereference id) = some node)
    (hkind : ∀ target, node.kind ≠ .reference target) (h : r.resolve g id hint = .error f) :
    f.IsTrue g ∧ f.node = g.dereference id := by
  obtain ⟨name, -, hok⟩ | ⟨-, c, name, -, -, hok⟩ | ⟨-, hnone, herror⟩ :=
    Resolver.resolve_cases r g id hint
  · rw [hok] at h; cases h
  · rw [hok] at h; cases h
  · rw [herror] at h
    obtain rfl := Except.error.inj h
    rw [Resolver.candidate?, hnode, Option.bind_some, List.findSome?_eq_none_iff] at hnone
    exact ⟨⟨node, hnode, hkind, hnone⟩, rfl⟩

end Fault

namespace Schema.Graph

/-- The first node is an array of the second. -/
def HasItems (g : Graph) (id items : NodeId) : Prop :=
  ∃ node pointer, g.node? id = some node ∧ node.kind = .array pointer ∧
    g.dereference pointer = items

/-- The second node is where the first leads from array to items, and is no array. -/
def InnermostItems (g : Graph) (id last : NodeId) : Prop :=
  ReflTransGen g.HasItems id last ∧ ∀ items, ¬ g.HasItems last items

theorem InnermostItems.self {g : Graph} {id : NodeId} {node : Node} (hnode : g.node? id = some node)
    (hkind : ∀ pointer, node.kind ≠ .array pointer) : g.InnermostItems id id := by
  refine ⟨.refl, ?_⟩
  rintro items ⟨node', pointer, hnode', harray, -⟩
  obtain rfl := Option.some.inj (hnode.symm.trans hnode')
  exact hkind pointer harray

theorem InnermostItems.head {g : Graph} {id items last : NodeId} (hitems : g.HasItems id items)
    (h : g.InnermostItems items last) : g.InnermostItems id last :=
  ⟨.head hitems h.1, h.2⟩

end Schema.Graph

/-! ### Types -/

namespace TypeRef

mutual

/-- A type is that of the node a pointer leads to. Where it is the type of every value instead, the
node that failed is to blame: the node itself, or the one that it is an array of in the end. -/
def Explained (g : Graph) (r : Resolver) (Blamed : NodeId → Prop) : TypeRef → NodeId → Prop
  | .builtin type format, id =>
    ∃ node, g.node? (g.dereference id) = some node ∧ node.kind = .primitive type format
  | .named name _, id => r.nameOf (g.dereference id) = some name
  | .collection item, id =>
    ∃ node items, g.node? (g.dereference id) = some node ∧ node.kind = .array items ∧
      item.Explained g r Blamed items
  | .oneOf cases, id =>
    ∃ node variants, g.node? (g.dereference id) = some node ∧ node.kind = .union variants ∧
      ExplainedAll g r Blamed cases variants
  | .unknown, id => ∃ failed, Blamed failed ∧ g.InnermostItems (g.dereference id) failed

/-- `Explained` of types in a row, one for each pointer. -/
def ExplainedAll (g : Graph) (r : Resolver) (Blamed : NodeId → Prop) :
    List TypeRef → List NodeId → Prop
  | [], ids => ids = []
  | t :: rest, ids => ∃ id more, ids = id :: more ∧ t.Explained g r Blamed id ∧
      ExplainedAll g r Blamed rest more

end

mutual

theorem Explained.mono {g : Graph} {r r' : Resolver} {Blamed Blamed' : NodeId → Prop}
    (hr : ∀ i name, r.nameOf i = some name → r'.nameOf i = some name)
    (hblamed : ∀ i, Blamed i → Blamed' i) {t : TypeRef} {id : NodeId}
    (h : t.Explained g r Blamed id) : t.Explained g r' Blamed' id := by
  cases t with
  | builtin type format => simpa [Explained] using h
  | named name isValue =>
    rw [Explained] at h ⊢
    exact hr _ _ h
  | collection item =>
    rw [Explained] at h ⊢
    obtain ⟨node, items, hnode, hkind, hitem⟩ := h
    exact ⟨node, items, hnode, hkind, Explained.mono hr hblamed hitem⟩
  | oneOf cases =>
    rw [Explained] at h ⊢
    obtain ⟨node, variants, hnode, hkind, hcases⟩ := h
    exact ⟨node, variants, hnode, hkind, ExplainedAll.mono hr hblamed hcases⟩
  | unknown =>
    rw [Explained] at h ⊢
    obtain ⟨failed, hfailed, hpath⟩ := h
    exact ⟨failed, hblamed failed hfailed, hpath⟩

theorem ExplainedAll.mono {g : Graph} {r r' : Resolver} {Blamed Blamed' : NodeId → Prop}
    (hr : ∀ i name, r.nameOf i = some name → r'.nameOf i = some name)
    (hblamed : ∀ i, Blamed i → Blamed' i) {ts : List TypeRef} {ids : List NodeId}
    (h : ExplainedAll g r Blamed ts ids) : ExplainedAll g r' Blamed' ts ids := by
  cases ts with
  | nil => simpa [ExplainedAll] using h
  | cons t rest =>
    rw [ExplainedAll] at h ⊢
    obtain ⟨id, more, hids, ht, hrest⟩ := h
    exact ⟨id, more, hids, Explained.mono hr hblamed ht,
      ExplainedAll.mono hr hblamed hrest⟩

end

end TypeRef

/-! ### Contracts -/

namespace Contract

/-- A node has the name that is given for it; if there is none, it is to blame. -/
def NamedOrBlamed (g : Graph) (r : Resolver) (Blamed : NodeId → Prop) (id : NodeId) :
    Option String → Prop
  | some name => r.nameOf (g.dereference id) = some name
  | none => Blamed (g.dereference id)

/-- A member is that of a property, and has its type. -/
def Member.Explained (g : Graph) (r : Resolver) (Blamed : NodeId → Prop) (p : Schema.Property)
    (m : Member) : Prop :=
  m.rawName = p.name ∧ m.type.Explained g r Blamed p.schema

/-- The subtypes of a class are those of the entries of a mapping, in their order; an entry that
is left out has a node to blame. -/
inductive SubtypesExplained (g : Graph) (r : Resolver) (Blamed : NodeId → Prop) :
    List Schema.Mapping → List Subtype → Prop where
  /-- There are no entries. -/
  | nil : SubtypesExplained g r Blamed [] []
  /-- An entry has a subtype. -/
  | keep {m : Schema.Mapping} {name : String} {ms : List Schema.Mapping} {subs : List Subtype} :
      r.nameOf (g.dereference m.target) = some name → SubtypesExplained g r Blamed ms subs →
      SubtypesExplained g r Blamed (m :: ms) (⟨m.value, name⟩ :: subs)
  /-- An entry is left out. -/
  | skip {m : Schema.Mapping} {ms : List Schema.Mapping} {subs : List Subtype} :
      Blamed (g.dereference m.target) → SubtypesExplained g r Blamed ms subs →
      SubtypesExplained g r Blamed (m :: ms) subs

/-- What a class declares is what its object does, and what it leaves out has a node to blame. -/
structure Record.Explained (g : Graph) (r : Resolver) (Blamed : NodeId → Prop) (id : NodeId)
    (shape : Schema.Shape) (record : Record) : Prop where
  /-- The class has the base of the object. -/
  base : ∀ base, shape.base = some base → NamedOrBlamed g r Blamed base record.base
  /-- The class has no other base. -/
  baseless : shape.base = none → record.base = none
  /-- The members are those of the properties that are shown. -/
  members : List.Forall₂ (Member.Explained g r Blamed)
    (shape.properties.filter fun p => Walk.inheritedProperty g id != some p.name) record.members
  /-- The class tells apart the subtypes of the object. -/
  hierarchy : ∀ d, shape.discriminator = some d → ∃ subs,
    record.hierarchy = some ⟨d.propertyName, subs⟩ ∧ SubtypesExplained g r Blamed d.mapping subs
  /-- The class tells apart no others. -/
  flat : shape.discriminator = none → record.hierarchy = none

/-- What a contract declares is what its node does, and what it leaves out has a node to blame. -/
def Explained (g : Graph) (r : Resolver) (Blamed : NodeId → Prop) (c : Contract) : Prop :=
  ∃ node, g.node? c.node = some node ∧
    match c.body with
    | .record record =>
      ∃ shape, node.kind = .object shape ∧ record.Explained g r Blamed c.node shape
    | .enumeration _ => ∃ values, node.kind = .enumeration values
    | .union u => ∃ variants, node.kind = .union variants ∧
        List.Forall₂ (fun variant k => k.type.Explained g r Blamed variant) variants u.cases

section

variable {g : Graph} {r r' : Resolver} {Blamed Blamed' : NodeId → Prop}
  (hr : ∀ i name, r.nameOf i = some name → r'.nameOf i = some name)
  (hblamed : ∀ i, Blamed i → Blamed' i)

include hr hblamed

theorem NamedOrBlamed.mono {id : NodeId} {out : Option String}
    (h : NamedOrBlamed g r Blamed id out) : NamedOrBlamed g r' Blamed' id out := by
  cases out with
  | some name => exact hr _ _ h
  | none => exact hblamed _ h

theorem SubtypesExplained.mono {ms : List Schema.Mapping} {subs : List Subtype}
    (h : SubtypesExplained g r Blamed ms subs) : SubtypesExplained g r' Blamed' ms subs := by
  induction h with
  | nil => exact .nil
  | keep hname _ ih => exact .keep (hr _ _ hname) ih
  | skip hid _ ih => exact .skip (hblamed _ hid) ih

theorem members_mono {ps : List Schema.Property} {ms : List Member}
    (h : List.Forall₂ (Member.Explained g r Blamed) ps ms) :
    List.Forall₂ (Member.Explained g r' Blamed') ps ms :=
  h.imp fun _ _ hm => ⟨hm.1, hm.2.mono hr hblamed⟩

theorem cases_mono {variants : List NodeId} {ks : List Case}
    (h : List.Forall₂ (fun variant k => k.type.Explained g r Blamed variant) variants ks) :
    List.Forall₂ (fun variant k => k.type.Explained g r' Blamed' variant) variants ks :=
  h.imp fun _ _ hk => hk.mono hr hblamed

/-- A contract stays explained with more names and more nodes to blame. -/
theorem Explained.mono {c : Contract} (h : c.Explained g r Blamed) : c.Explained g r' Blamed' := by
  obtain ⟨node, hnode, h⟩ := h
  refine ⟨node, hnode, ?_⟩
  cases hbody : c.body with
  | enumeration e => simpa only [hbody] using h
  | union u =>
    simp only [hbody] at h ⊢
    obtain ⟨variants, hkind, hcases⟩ := h
    exact ⟨variants, hkind, cases_mono hr hblamed hcases⟩
  | record record =>
    simp only [hbody] at h ⊢
    obtain ⟨shape, hkind, hrecord⟩ := h
    refine ⟨shape, hkind, ?_, hrecord.baseless, members_mono hr hblamed hrecord.members, ?_,
      hrecord.flat⟩
    · exact fun base hbase => (hrecord.base base hbase).mono hr hblamed
    · intro d hd
      obtain ⟨subs, hsubs, hexplained⟩ := hrecord.hierarchy d hd
      exact ⟨subs, hsubs, hexplained.mono hr hblamed⟩

end

/-- Telling members of the same name apart changes neither their data names nor their types. -/
theorem members_distinctMembers {g : Graph} {r : Resolver} {Blamed : NodeId → Prop}
    {ps : List Schema.Property} {ms : List Member} (name : String)
    (h : List.Forall₂ (Member.Explained g r Blamed) ps ms) :
    List.Forall₂ (Member.Explained g r Blamed) ps (distinctMembers name ms) := by
  have hsame := map_distinctMembers (fun m => (m.rawName, m.type)) (fun _ _ => rfl) name ms
  have hpairs : List.Forall₂ (fun (p : Schema.Property) (x : String × TypeRef) =>
      x.1 = p.name ∧ x.2.Explained g r Blamed p.schema) ps
      (ms.map fun m => (m.rawName, m.type)) := List.forall₂_map_right_iff.2 h
  rw [← hsame] at hpairs
  exact (List.forall₂_map_right_iff.1 hpairs).imp fun _ _ hm => hm

end Contract

/-! ### Rendering a reference -/

namespace Resolver

/-- What rendering a reference to `id` tells about its problems. -/
structure Told (g : Graph) (r : Resolver) (id : NodeId) (r' : Resolver)
    (out : Except Fault TypeRef) : Prop where
  /-- Names stay. -/
  names : ∀ i name, r.nameOf i = some name → r'.nameOf i = some name
  /-- The faults that become pending are true, and explain the reference. -/
  pending : ∃ fs, r'.pending = r.pending ++ fs ∧ (∀ f ∈ fs, f.IsTrue g) ∧
    ∀ t, out = .ok t → t.Explained g r' (Fault.Blames fs) id
  /-- The fault that stands for the reference is true, and for the node that the reference is about
  or, in the end, an array of. -/
  fault : ∀ f, out = .error f → f.IsTrue g ∧ g.InnermostItems (g.dereference id) f.node

/-- What rendering the cases of a union tells about their problems. -/
structure ToldCases (g : Graph) (r : Resolver) (variants : List NodeId) (r' : Resolver)
    (cases : List TypeRef) : Prop where
  /-- Names stay. -/
  names : ∀ i name, r.nameOf i = some name → r'.nameOf i = some name
  /-- The faults that become pending are true, and explain the cases. -/
  pending : ∃ fs, r'.pending = r.pending ++ fs ∧ (∀ f ∈ fs, f.IsTrue g) ∧
    TypeRef.ExplainedAll g r' (Fault.Blames fs) cases variants

variable {g : Graph} {r r' : Resolver} {id : NodeId} {hint : Option String}

theorem Told.idle {t : TypeRef} (h : t.Explained g r (Fault.Blames []) id) :
    Told g r id r (.ok t) where
  names _ _ h := h
  pending := ⟨[], by simp, by simp, fun t' heq => by cases heq; exact h⟩
  fault _ heq := by cases heq

theorem Told.failed {f : Fault} (hf : f.IsTrue g)
    (hpath : g.InnermostItems (g.dereference id) f.node) : Told g r id r (.error f) where
  names _ _ h := h
  pending := ⟨[], by simp, by simp, fun t heq => by cases heq⟩
  fault _ heq := by cases heq; exact ⟨hf, hpath⟩

theorem Told.array {items : NodeId} {node : Node} {out : Except Fault TypeRef}
    (hnode : g.node? (g.dereference id) = some node) (hkind : node.kind = .array items)
    (h : Told g r items r' out) : Told g r id r' (out.map .collection) := by
  obtain ⟨fs, hpending, htrue, hexplained⟩ := h.pending
  cases out with
  | ok t =>
    refine ⟨h.names, ⟨fs, hpending, htrue, fun t' heq => ?_⟩, fun f heq => by cases heq⟩
    cases heq
    rw [TypeRef.Explained]
    exact ⟨node, items, hnode, hkind, hexplained t rfl⟩
  | error f =>
    refine ⟨h.names, ⟨fs, hpending, htrue, fun t' heq => by cases heq⟩, fun f' heq => ?_⟩
    cases heq
    obtain ⟨hf, hpath⟩ := h.fault f rfl
    exact ⟨hf, .head ⟨node, items, hnode, hkind, rfl⟩ hpath⟩

theorem Told.inline {node : Node} {variants : List NodeId} {cases : List TypeRef}
    (hnode : g.node? (g.dereference id) = some node) (hkind : node.kind = .union variants)
    (h : ToldCases g r variants r' cases) :
    Told g r id { r' with features := r'.features.withInlineUnion variants.length }
      (.ok (.oneOf cases)) := by
  obtain ⟨fs, hpending, htrue, hexplained⟩ := h.pending
  refine ⟨h.names, ⟨fs, hpending, htrue, fun t heq => ?_⟩, fun f heq => by cases heq⟩
  cases heq
  rw [TypeRef.Explained]
  refine ⟨node, variants, hnode, hkind, ?_⟩
  refine TypeRef.ExplainedAll.mono ?_ (fun _ h => h) hexplained
  exact fun _ _ h => h

theorem Told.byName {name : String} {isValue : Bool}
    (hself : g.dereference (g.dereference id) = g.dereference id)
    (h : r.resolve g (g.dereference id) hint = .ok (name, r')) :
    Told g r id r' (.ok (.named name isValue)) := by
  obtain ⟨hname, hgrows⟩ := resolve_grows h
  refine ⟨fun i n hi => hgrows.nameOf hi, ⟨[], ?_, by simp, fun t heq => ?_⟩,
    fun f heq => by cases heq⟩
  · rw [(resolve_unchanged h).2, List.append_nil]
  · cases heq
    rw [TypeRef.Explained, ← hself]
    exact hname

theorem ToldCases.cons {variant : NodeId} {rest : List NodeId} {r₁ r₂ : Resolver}
    {out : Except Fault TypeRef} {t : TypeRef} {cases : List TypeRef}
    (hfirst : Told g r variant r₁ out) (hsettle : r₁.settleCase out = (r₂, t))
    (hrest : ToldCases g r₂ rest r' cases) :
    ToldCases g r (variant :: rest) r' (t :: cases) := by
  obtain ⟨fs, hpending, htrue, hexplained⟩ := hfirst.pending
  obtain ⟨fs', hpending', htrue', hexplained'⟩ := hrest.pending
  have hnames : ∀ i, r₂.nameOf i = r₁.nameOf i := nameOf_of_names_eq (settleCase_eq hsettle).2.1
  have hkeep : ∀ i name, r₁.nameOf i = some name → r'.nameOf i = some name := fun i name hi =>
    hrest.names i name ((hnames i).trans hi)
  -- a case that failed adds its own fault to those of what is inside it
  obtain ⟨own, hown, hownTrue, ht⟩ : ∃ own, r₂.pending = r.pending ++ own ∧
      (∀ f ∈ own, f.IsTrue g) ∧ t.Explained g r₁ (Fault.Blames own) variant := by
    cases out with
    | ok t' =>
      obtain ⟨rfl, rfl⟩ := by simpa [settleCase] using hsettle
      exact ⟨fs, hpending, htrue, hexplained t' rfl⟩
    | error f =>
      obtain ⟨rfl, rfl⟩ := by simpa [settleCase] using hsettle
      obtain ⟨hf, hpath⟩ := hfirst.fault f rfl
      refine ⟨fs ++ [f], by simp [hpending], fun f' hf' => ?_, ?_⟩
      · rcases List.mem_append.1 hf' with hf' | hf'
        · exact htrue f' hf'
        · exact List.mem_singleton.1 hf' ▸ hf
      · rw [TypeRef.Explained]
        exact ⟨f.node, ⟨f, by simp, rfl⟩, hpath⟩
  refine ⟨fun i name hi => hkeep i name (hfirst.names i name hi), own ++ fs', ?_, ?_, ?_⟩
  · rw [hpending', hown, List.append_assoc]
  · intro f hf
    rcases List.mem_append.1 hf with hf | hf
    · exact hownTrue f hf
    · exact htrue' f hf
  · rw [TypeRef.ExplainedAll]
    refine ⟨variant, rest, rfl, ?_, ?_⟩
    · exact TypeRef.Explained.mono hkeep
        (fun i => Fault.Blames.mono (List.subset_append_left own fs')) ht
    · exact TypeRef.ExplainedAll.mono (fun _ _ h => h)
        (fun i => Fault.Blames.mono (List.subset_append_right own fs')) hexplained'

/-- **What a descent tells**, in a sound graph. -/
theorem descend_told (hvalid : g.validate = .ok ()) {depth : Nat} {out : Except Fault TypeRef}
    (hid : id < g.size) (h : descend g depth r id hint = some (r', out)) :
    Told g r id r' out := by
  refine descend_rule (P := fun r id _ r' out => id < g.size → Told g r id r' out)
    (Q := fun _ _ r variants r' cases => (∀ v ∈ variants, v < g.size) →
      ToldCases g r variants r' cases) ?missing ?builtin ?unknown ?array
    ?empty ?inline ?named ?unnamed ?nil ?cons depth r id hint r' out h hid
  case missing =>
    intro r id hint hnone hid
    obtain ⟨node, hnode, -⟩ := Graph.exists_dereferenced hvalid hid
    rw [hnone] at hnode
    cases hnode
  case builtin =>
    intro r id hint node type format hnode hkind hid
    refine .idle ?_
    rw [TypeRef.Explained]
    exact ⟨node, hnode, hkind⟩
  case unknown =>
    intro r id hint node target hnode hkind hid
    obtain ⟨node', hnode', hreference⟩ := Graph.exists_dereferenced hvalid hid
    obtain rfl := Option.some.inj (hnode.symm.trans hnode')
    exact absurd hkind (hreference target)
  case array =>
    intro r id hint node items r' out hnode hkind ih hid
    refine .array hnode hkind (ih ?_)
    exact Graph.lt_size_of_child hvalid hnode (by simp [hkind, Kind.children])
  case empty =>
    intro r id hint node hnode hkind hid
    exact .failed ⟨node, hnode, hkind⟩ (.self hnode (by simp [hkind]))
  case inline =>
    intro r id hint node variants r' cases hnode hkind hne hinline ih hid
    refine .inline hnode hkind (ih fun v hv => ?_)
    exact Graph.lt_size_of_child hvalid hnode (by simpa [hkind, Kind.children] using hv)
  case named =>
    intro r id hint node name isValue r' hnode hkind hok hid
    exact .byName (Graph.dereference_of_target?_eq_none (target?_eq_none_of_isNominal hnode hkind))
      hok
  case unnamed =>
    intro r id hint node fault hnode hnominal herror hid
    obtain ⟨node', hnode', hreference⟩ := Graph.exists_dereferenced hvalid hid
    have hself := Graph.dereference_of_target?_eq_none
      (Graph.target?_eq_none_of_kind hnode' hreference)
    obtain ⟨htrue, heq⟩ := Fault.isTrue_of_resolve (hself.symm ▸ hnode') hreference herror
    refine .failed htrue ?_
    rw [heq, hself]
    refine .self hnode fun pointer harray => ?_
    simp [Node.isNominal, harray] at hnominal
  case nil =>
    intro hint index r hvariants
    exact ⟨fun _ _ h => h, [], by simp, by simp, by rw [TypeRef.ExplainedAll]⟩
  case cons =>
    intro hint index r variant rest r₁ out r₂ t r' cases hfirst hsettle hrest hvariants
    exact .cons (hfirst (hvariants variant List.mem_cons_self)) hsettle
      (hrest fun v hv => hvariants v (List.mem_cons_of_mem _ hv))

end Resolver

/-! ### Walks that keep honest -/

namespace Walk

variable {g : Graph} {w w' : Walk}

/-- Nothing is pending, the faults are true, and no problem is noted twice. -/
structure Honest (g : Graph) (w : Walk) : Prop where
  /-- No fault stays behind in the resolver. -/
  pending : w.resolver.pending = []
  /-- Faults are true. -/
  isTrue : ∀ f ∈ w.faults, f.IsTrue g
  /-- No two faults are of one kind for one node. -/
  apart : w.faults.Pairwise fun f f' => ¬ (f.node = f'.node ∧ f.kind = f'.kind)

theorem faults_report (w : Walk) (f : Fault) :
    (w.report f).faults =
      if w.faults.any f.isSameProblem then w.faults else w.faults ++ [f] := by
  unfold report
  split_ifs
  · rfl
  · simp [Walk.faults, faultOf?]

theorem blames_report (w : Walk) (f : Fault) : Fault.Blames (w.report f).faults f.node := by
  rw [faults_report]
  split_ifs with hany
  · obtain ⟨f', hf', hsame⟩ := List.any_eq_true.1 hany
    simp only [Fault.isSameProblem, Bool.and_eq_true, beq_iff_eq] at hsame
    exact ⟨f', hf', hsame.1.symm⟩
  · exact ⟨f, by simp, rfl⟩

theorem Honest.report (h : Honest g w) {f : Fault} (hf : f.IsTrue g) : Honest g (w.report f) := by
  refine ⟨by rw [resolver_report]; exact h.pending, ?_, ?_⟩
  · intro f' hf'
    rw [faults_report] at hf'
    split_ifs at hf'
    · exact h.isTrue f' hf'
    · rcases List.mem_append.1 hf' with hf' | hf'
      · exact h.isTrue f' hf'
      · exact List.mem_singleton.1 hf' ▸ hf
  · rw [faults_report]
    split_ifs with hany
    · exact h.apart
    · refine List.pairwise_append.2 ⟨h.apart, List.pairwise_singleton _ _, ?_⟩
      rintro f₁ hf₁ f₂ hf₂ ⟨hnode, hkind⟩
      obtain rfl := List.mem_singleton.1 hf₂
      exact hany (List.any_eq_true.2 ⟨f₁, hf₁, by simp [Fault.isSameProblem, hnode, hkind]⟩)

theorem Honest.reportAll (h : Honest g w) {fs : List Fault} (hfs : ∀ f ∈ fs, f.IsTrue g) :
    Honest g (w.reportAll fs) := by
  induction fs generalizing w with
  | nil => exact h
  | cons f fs ih =>
    exact ih (h.report (hfs f List.mem_cons_self)) fun f' hf' =>
      hfs f' (List.mem_cons_of_mem _ hf')

theorem reportAll_fills (P : NodeId → String → Prop) (w : Walk) (fs : List Fault) :
    Fills P w (w.reportAll fs) := by
  induction fs generalizing w with
  | nil => exact .refl P w
  | cons f fs ih => exact (report_fills P w f).trans (ih (w.report f))

theorem blames_reportAll (w : Walk) (fs : List Fault) {i : NodeId} (h : Fault.Blames fs i) :
    Fault.Blames (w.reportAll fs).faults i := by
  induction fs generalizing w with
  | nil =>
    obtain ⟨f, hf, -⟩ := h
    cases hf
  | cons f fs ih =>
    obtain ⟨f', hf', rfl⟩ := h
    rcases List.mem_cons.1 hf' with rfl | hf'
    · exact (blames_report w f').mono
        (reportAll_fills (fun _ _ => True) (w.report f') fs).faults.subset
    · exact ih (w.report f) ⟨f', hf', rfl⟩

/-! ### Parts of a contract -/

section

variable {P : NodeId → String → Prop} (hfills : Fills P w w')

include hfills

theorem nameOf_of_fills (i : NodeId) (name : String) (h : w.resolver.nameOf i = some name) :
    w'.resolver.nameOf i = some name :=
  hfills.grows.nameOf h

theorem blames_of_fills (i : NodeId) (h : Fault.Blames w.faults i) : Fault.Blames w'.faults i :=
  h.mono hfills.faults.subset

end

section

variable (hvalid : g.validate = .ok ()) (hw : Honest g w)

include hvalid hw

theorem name?_explained {id : NodeId} {hint : Option String} {out : Option String}
    (hid : id < g.size) (h : w.name? g id hint = (w', out)) :
    Honest g w' ∧ Contract.NamedOrBlamed g w'.resolver (Fault.Blames w'.faults) id out := by
  obtain ⟨node, hnode, hkind⟩ := Graph.exists_dereferenced hvalid hid
  obtain ⟨name, r', hok, rfl, rfl⟩ | ⟨f, herror, rfl, rfl⟩ := name?_cases h
  · refine ⟨⟨?_, hw.isTrue, hw.apart⟩, (Resolver.resolve_grows hok).1⟩
    exact (Resolver.resolve_unchanged hok).2.trans hw.pending
  · obtain ⟨hf, heq⟩ := Fault.isTrue_of_resolve hnode hkind herror
    refine ⟨hw.report hf, ?_⟩
    rw [Contract.NamedOrBlamed, ← heq]
    exact blames_report w f

theorem typeRef_explained {id : NodeId} {hint : String} {type : Option TypeRef}
    (hid : id < g.size) (h : w.typeRef g id hint = some (w', type)) :
    Honest g w' ∧
      (type.getD .unknown).Explained g w'.resolver (Fault.Blames w'.faults) id := by
  simp only [typeRef, Option.bind_eq_bind, Option.bind_eq_some_iff, Prod.exists] at h
  obtain ⟨r', out, hout, h⟩ := h
  have htold := Resolver.descend_told hvalid hid hout
  obtain ⟨fs, hpending, htrue, hexplained⟩ := htold.pending
  rw [hw.pending, List.nil_append] at hpending
  -- pending faults are noted first, then the one that stands for the whole reference
  have htaken : Honest g { w with resolver := r'.takeFaults.2 } := ⟨rfl, hw.isTrue, hw.apart⟩
  have hreported := htaken.reportAll htrue
  simp only [Resolver.takeFaults, hpending] at h hreported
  cases out with
  | ok t =>
    obtain ⟨rfl, rfl⟩ := by simpa using h
    refine ⟨hreported, TypeRef.Explained.mono (r := r') ?_ ?_ (hexplained t rfl)⟩
    · intro i name hi
      rw [resolver_reportAll]
      exact hi
    · exact fun i => blames_reportAll _ fs
  | error f =>
    obtain ⟨rfl, rfl⟩ := by simpa using h
    obtain ⟨hf, hpath⟩ := htold.fault f rfl
    refine ⟨hreported.report hf, ?_⟩
    rw [Option.getD_none, TypeRef.Explained]
    exact ⟨f.node, blames_report _ f, hpath⟩

theorem member_explained {p : Schema.Property} {m : Member} {tasks : List Task}
    (hp : p.schema < g.size) (h : w.member g p = some (w', m, tasks)) :
    Honest g w' ∧ Member.Explained g w'.resolver (Fault.Blames w'.faults) p m := by
  simp only [member, Option.bind_eq_bind, Option.bind_eq_some_iff, Prod.exists] at h
  obtain ⟨w₁, type, htype, h⟩ := h
  obtain ⟨hw₁, hexplained⟩ := typeRef_explained hvalid hw hp htype
  obtain ⟨rfl, rfl, rfl⟩ := by simpa using h
  refine ⟨⟨hw₁.pending, hw₁.isTrue, hw₁.apart⟩, rfl, ?_⟩
  refine TypeRef.Explained.mono ?_ ?_ hexplained
  · exact fun _ _ h => h
  · exact fun _ h => h

theorem members_explained {ps : List Schema.Property} {ms : List Member} {tasks : List Task}
    (hps : ∀ p ∈ ps, p.schema < g.size) (h : w.members g ps = some (w', ms, tasks)) :
    Honest g w' ∧
      List.Forall₂ (Member.Explained g w'.resolver (Fault.Blames w'.faults)) ps ms := by
  induction ps generalizing w w' ms tasks with
  | nil =>
    obtain ⟨rfl, rfl, rfl⟩ := by simpa [members] using h
    exact ⟨hw, .nil⟩
  | cons p ps ih =>
    simp only [members, Option.bind_eq_bind, Option.bind_eq_some_iff, Prod.exists] at h
    obtain ⟨w₁, m, ts, hfirst, w₂, ms', more, hrest, h⟩ := h
    obtain ⟨rfl, rfl, rfl⟩ := by simpa using h
    obtain ⟨hw₁, hname, hm⟩ := member_explained hvalid hw (hps p List.mem_cons_self) hfirst
    obtain ⟨hw₂, hms⟩ := ih hw₁ (fun q hq => hps q (List.mem_cons_of_mem _ hq)) hrest
    have hfills := (members_part hrest).1.fills
    exact ⟨hw₂, .cons ⟨hname, hm.mono (nameOf_of_fills hfills) (blames_of_fills hfills)⟩ hms⟩

theorem base_explained {typeName : String} {base : Option NodeId} {name : Option String}
    {tasks : List Task} (hbase : ∀ id, base = some id → id < g.size)
    (h : w.base g typeName base = (w', name, tasks)) :
    Honest g w' ∧ (base = none → name = none) ∧ ∀ id, base = some id →
      Contract.NamedOrBlamed g w'.resolver (Fault.Blames w'.faults) id name := by
  cases base with
  | none =>
    obtain ⟨rfl, rfl, rfl⟩ := by simpa [Walk.base] using h
    exact ⟨hw, fun _ => rfl, by simp⟩
  | some id =>
    cases hname : w.name? g id (some (typeName ++ "Base")) with
    | mk w₁ out =>
      obtain ⟨hw₁, hexplained⟩ := name?_explained hvalid hw (hbase id rfl) hname
      obtain ⟨rfl, rfl⟩ : w₁ = w' ∧ out = name := by
        cases out with
        | some n =>
          obtain ⟨rfl, rfl, -⟩ := by simpa [Walk.base, hname] using h
          exact ⟨rfl, rfl⟩
        | none =>
          obtain ⟨rfl, rfl, -⟩ := by simpa [Walk.base, hname] using h
          exact ⟨rfl, rfl⟩
      exact ⟨hw₁, by simp, fun i hi => Option.some.inj hi ▸ hexplained⟩

theorem subtypes_explained {mapping : List Schema.Mapping} {subs : List Subtype}
    {tasks : List Task} (hmapping : ∀ m ∈ mapping, m.target < g.size)
    (h : w.subtypes g mapping = (w', subs, tasks)) :
    Honest g w' ∧
      Contract.SubtypesExplained g w'.resolver (Fault.Blames w'.faults) mapping subs := by
  induction mapping generalizing w w' subs tasks with
  | nil =>
    obtain ⟨rfl, rfl, rfl⟩ := by simpa [subtypes] using h
    exact ⟨hw, .nil⟩
  | cons m rest ih =>
    cases hname : w.name? g m.target (some m.value) with
    | mk w₁ out =>
      obtain ⟨hw₁, hexplained⟩ :=
        name?_explained hvalid hw (hmapping m List.mem_cons_self) hname
      cases hrest : w₁.subtypes g rest with
      | mk w₂ more =>
        obtain ⟨hw₂, hsubs⟩ :=
          ih hw₁ (fun m' hm' => hmapping m' (List.mem_cons_of_mem _ hm')) hrest
        have hfills := (subtypes_part hrest).1.fills
        have hlater := hexplained.mono (nameOf_of_fills hfills) (blames_of_fills hfills)
        cases out with
        | some n =>
          obtain ⟨rfl, rfl, -⟩ := by simpa [subtypes, hname, hrest] using h
          exact ⟨hw₂, .keep hlater hsubs⟩
        | none =>
          obtain ⟨rfl, rfl, -⟩ := by simpa [subtypes, hname, hrest] using h
          exact ⟨hw₂, .skip hlater hsubs⟩

theorem hierarchy_explained {d : Option Schema.Discriminator} {hierarchy : Option Hierarchy}
    {tasks : List Task} (hd : ∀ d', d = some d' → ∀ m ∈ d'.mapping, m.target < g.size)
    (h : w.hierarchy g d = (w', hierarchy, tasks)) :
    Honest g w' ∧ (d = none → hierarchy = none) ∧ ∀ d', d = some d' → ∃ subs,
      hierarchy = some ⟨d'.propertyName, subs⟩ ∧
      Contract.SubtypesExplained g w'.resolver (Fault.Blames w'.faults) d'.mapping subs := by
  cases d with
  | none =>
    obtain ⟨rfl, rfl, rfl⟩ := by simpa [Walk.hierarchy] using h
    exact ⟨hw, fun _ => rfl, by simp⟩
  | some d =>
    let w₀ : Walk := { w with
      resolver := { w.resolver with features := { w.resolver.features with inheritance := true } } }
    have hw₀ : Honest g w₀ := ⟨hw.pending, hw.isTrue, hw.apart⟩
    cases hsubs : w₀.subtypes g d.mapping with
    | mk w₁ more =>
      obtain ⟨hw₁, hexplained⟩ := subtypes_explained hvalid hw₀ (hd d rfl) hsubs
      obtain ⟨rfl, rfl, rfl⟩ := by simpa [Walk.hierarchy, w₀, hsubs] using h
      refine ⟨hw₁, by simp, fun d' hd' => ?_⟩
      obtain rfl := Option.some.inj hd'
      exact ⟨more.1, rfl, hexplained⟩

theorem cases_explained {typeName : String} {used : List String} {index : Nat}
    {variants : List NodeId} {ks : List Case} {tasks : List Task}
    (hvariants : ∀ v ∈ variants, v < g.size)
    (h : Walk.cases g typeName w used index variants = some (w', ks, tasks)) :
    Honest g w' ∧ List.Forall₂ (fun variant k =>
      k.type.Explained g w'.resolver (Fault.Blames w'.faults) variant) variants ks := by
  induction variants generalizing w w' used index ks tasks with
  | nil =>
    obtain ⟨rfl, rfl, rfl⟩ := by simpa [Walk.cases] using h
    exact ⟨hw, .nil⟩
  | cons variant rest ih =>
    simp only [Walk.cases, Option.bind_eq_bind, Option.bind_eq_some_iff, Prod.exists] at h
    obtain ⟨w₁, type, htype, w₂, more, moreTasks, hrest, h⟩ := h
    obtain ⟨rfl, rfl, rfl⟩ := by simpa using h
    obtain ⟨hw₁, hk⟩ := typeRef_explained hvalid hw (hvariants variant List.mem_cons_self) htype
    obtain ⟨hw₂, hks⟩ := ih hw₁ (fun v hv => hvariants v (List.mem_cons_of_mem _ hv)) hrest
    have hfills := (cases_part hrest).1.fills
    exact ⟨hw₂, .cons (hk.mono (nameOf_of_fills hfills) (blames_of_fills hfills)) hks⟩

end

/-! ### Visits -/

/-- The walk goes on honestly, and what it declares on the way is explained. -/
structure Advances (g : Graph) (w w' : Walk) : Prop where
  /-- The new state is honest. -/
  honest : Honest g w'
  /-- New contracts are explained. -/
  contracts : ∀ c ∈ w'.contracts, c ∈ w.contracts ∨
    c.Explained g w'.resolver (Fault.Blames w'.faults)

theorem Advances.declare {w₁ : Walk} {c : Contract} (hw₁ : Honest g w₁)
    (hcontracts : w₁.contracts = w.contracts)
    (hc : c.Explained g w₁.resolver (Fault.Blames w₁.faults)) : Advances g w (w₁.declare c) where
  honest := ⟨hw₁.pending, by rw [faults_declare]; exact hw₁.isTrue,
    by rw [faults_declare]; exact hw₁.apart⟩
  contracts c' hc' := by
    rw [contracts_declare, hcontracts, List.mem_append, List.mem_singleton] at hc'
    rw [faults_declare]
    rcases hc' with hold | rfl
    · exact .inl hold
    · exact .inr hc

section

variable (hvalid : g.validate = .ok ()) (hw : Honest g w)

include hvalid hw

theorem declareRecord_advances {id : NodeId} {node : Node} {shape : Schema.Shape} {name : String}
    {tasks : List Task} (hnode : g.node? id = some node) (hkind : node.kind = .object shape)
    (h : w.declareRecord g id node shape name = some (w', tasks)) : Advances g w w' := by
  have hchild : ∀ child ∈ node.kind.children, child < g.size := fun child =>
    Graph.lt_size_of_child hvalid hnode
  simp only [hkind, Kind.children, List.mem_append, Option.mem_toList] at hchild
  simp only [declareRecord, Option.bind_eq_bind, Option.bind_eq_some_iff, Prod.exists] at h
  obtain ⟨w₂, ms, memberTasks, hmembers, h⟩ := h
  cases hbase : w.base g name shape.base with
  | mk w₁ more =>
    obtain ⟨base, baseTasks⟩ := more
    cases hhierarchy : w₂.hierarchy g shape.discriminator with
    | mk w₃ more =>
      obtain ⟨hierarchy, subtypeTasks⟩ := more
      simp only [hbase] at hmembers
      obtain ⟨rfl, rfl⟩ := by simpa [hbase, hhierarchy] using h
      obtain ⟨hw₁, hbaseless, hbased⟩ :=
        base_explained hvalid hw (fun b hb => hchild b (.inl (.inl hb))) hbase
      obtain ⟨hw₂, hms⟩ := members_explained hvalid hw₁ (fun p hp => hchild p.schema
        (.inl (.inr (List.mem_map_of_mem (List.mem_filter.1 hp).1)))) hmembers
      obtain ⟨hw₃, hflat, hsubs⟩ := hierarchy_explained hvalid hw₂ (fun d hd m hm =>
        hchild m.target (.inr (by simpa [hd] using List.mem_map_of_mem hm))) hhierarchy
      have hfills₁ := (base_part hbase).1.fills
      have hfills₂ := (members_part hmembers).1.fills
      have hfills₃ := (hierarchy_part hhierarchy).1.fills
      -- each part is explained right after it is built, and later parts only add names and faults
      refine .declare hw₃ ?_ ⟨node, hnode, shape, hkind, ?_, hbaseless, ?_, hsubs, hflat⟩
      · rw [hfills₃.contracts, hfills₂.contracts, hfills₁.contracts]
      · intro b hb
        have hlater := (hbased b hb).mono (nameOf_of_fills hfills₂) (blames_of_fills hfills₂)
        exact hlater.mono (nameOf_of_fills hfills₃) (blames_of_fills hfills₃)
      · have hlater := Contract.members_mono (nameOf_of_fills hfills₃) (blames_of_fills hfills₃) hms
        exact Contract.members_distinctMembers name hlater

theorem declareUnion_advances {id : NodeId} {node : Node} {variants : List NodeId} {name : String}
    {tasks : List Task} (hnode : g.node? id = some node) (hkind : node.kind = .union variants)
    (h : w.declareUnion g id node variants name = some (w', tasks)) : Advances g w w' := by
  simp only [declareUnion, Option.bind_eq_bind, Option.bind_eq_some_iff, Prod.exists] at h
  obtain ⟨w₁, ks, ts, hcases, h⟩ := h
  obtain ⟨rfl, rfl⟩ := by simpa using h
  obtain ⟨hw₁, hks⟩ := cases_explained hvalid hw (fun v hv =>
    Graph.lt_size_of_child hvalid hnode (by simpa [hkind, Kind.children] using hv)) hcases
  refine .declare ⟨hw₁.pending, hw₁.isTrue, hw₁.apart⟩ (cases_part hcases).1.fills.contracts ?_
  refine ⟨node, hnode, variants, hkind, ?_⟩
  refine Contract.cases_mono ?_ ?_ hks
  · exact fun _ _ h => h
  · exact fun _ h => h

theorem declareNamed_advances {id : NodeId} {hint : Option String} {tasks : List Task}
    {body : Walk → String → Option (Walk × List Task)} (hid : id < g.size)
    (hbody : ∀ w₁ name w' tasks, Honest g w₁ → body w₁ name = some (w', tasks) →
      Advances g w₁ w')
    (h : w.declareNamed g id hint body = some (w', tasks)) : Advances g w w' := by
  unfold declareNamed at h
  split at h
  · rename_i w₁ name hname
    have hadvances := hbody _ _ _ _ (name?_explained hvalid hw hid hname).1 h
    obtain ⟨_, r, -, ⟨⟩, rfl⟩ | ⟨_, _, ⟨⟩, _⟩ := name?_cases hname
    exact ⟨hadvances.honest, hadvances.contracts⟩
  · rename_i w₁ hname
    obtain ⟨rfl, rfl⟩ := by simpa using h
    refine ⟨(name?_explained hvalid hw hid hname).1, fun c hc => .inl ?_⟩
    obtain ⟨_, _, _, ⟨⟩, _⟩ | ⟨f, -, -, rfl⟩ := name?_cases hname
    rwa [contracts_report] at hc

theorem enter_advances {id : NodeId} {node : Node} {hint : Option String} {isRoot : Bool}
    {tasks : List Task} (hnode : g.node? id = some node)
    (h : w.enter g id node hint isRoot = some (w', tasks)) : Advances g w w' := by
  have hid := Graph.lt_size_of_node? hnode
  have hidle : Advances g w w := ⟨hw, fun c hc => .inl hc⟩
  cases hkind : node.kind with
  | enumeration values =>
    refine declareNamed_advances hvalid hw hid ?_ (by simpa only [enter, hkind] using h)
    intro w₁ name w' tasks hw₁ hbody
    obtain ⟨rfl, rfl⟩ := by simpa using hbody
    exact .declare hw₁ rfl ⟨node, hnode, values, hkind⟩
  | object shape =>
    refine declareNamed_advances hvalid hw hid ?_ (by simpa only [enter, hkind] using h)
    exact fun w₁ name w' tasks hw₁ hbody => declareRecord_advances hvalid hw₁ hnode hkind hbody
  | array items =>
    obtain ⟨rfl, rfl⟩ := by simpa [enter, hkind] using h
    exact hidle
  | primitive type format =>
    obtain ⟨rfl, rfl⟩ := by simpa [enter, hkind] using h
    exact hidle
  | reference target =>
    obtain ⟨rfl, rfl⟩ := by simpa [enter, hkind] using h
    exact hidle
  | union variants =>
    simp only [enter, hkind] at h
    split_ifs at h with hempty hnamed
    · obtain ⟨rfl, rfl⟩ := by simpa using h
      have hf : Fault.IsTrue g ⟨id, hint, .emptyUnion⟩ :=
        ⟨node, hnode, by rw [hkind, List.isEmpty_iff.1 hempty]⟩
      exact ⟨hw.report hf, fun c hc => .inl (by rwa [contracts_report] at hc)⟩
    · refine declareNamed_advances hvalid hw hid ?_ h
      exact fun w₁ name w' tasks hw₁ hbody => declareUnion_advances hvalid hw₁ hnode hkind hbody
    · obtain ⟨rfl, rfl⟩ := by simpa using h
      exact hidle

/-- **A visit keeps honest.** -/
theorem visit_advances {task : Task} {tasks : List Task} (h : w.visit g task = some (w', tasks)) :
    Advances g w w' := by
  by_cases hseen : g.dereference task.node ∈ w.visited
  · obtain ⟨rfl, rfl⟩ := by simpa [visit, hseen] using h
    exact ⟨hw, fun c hc => .inl hc⟩
  · have hmark : Honest g (w.mark (g.dereference task.node)) := ⟨hw.pending, hw.isTrue, hw.apart⟩
    cases hnode : g.node? (g.dereference task.node) with
    | none =>
      obtain ⟨rfl, rfl⟩ := by simpa [visit, hseen, hnode] using h
      exact ⟨hmark, fun c hc => .inl hc⟩
    | some node =>
      have hadvances := enter_advances hvalid hmark hnode (visit_of_new hseen hnode ▸ h)
      exact ⟨hadvances.honest, hadvances.contracts⟩

end

/-- **A walk keeps honest**, and all contracts are explained. -/
theorem Reached.explained {rootName : Option String} {tasks : List Task}
    (hvalid : g.validate = .ok ()) (h : Reached g rootName w tasks) :
    Honest g w ∧ ∀ c ∈ w.contracts, c.Explained g w.resolver (Fault.Blames w.faults) := by
  refine h.induct_visit (P := fun w _ => Honest g w ∧
    ∀ c ∈ w.contracts, c.Explained g w.resolver (Fault.Blames w.faults)) ?_ ?_
  · exact ⟨⟨rfl, by simp [faults], by simp [faults]⟩, by simp [contracts]⟩
  · rintro w task rest w' more - ⟨hw, hcontracts⟩ hvisit
    have hadvances := visit_advances hvalid hw hvisit
    refine ⟨hadvances.honest, fun c hc => ?_⟩
    rcases hadvances.contracts c hc with hold | hnew
    · have hvisits := visit_visits hvisit
      exact (hcontracts c hold).mono (fun _ _ => hvisits.grows.nameOf)
        fun _ hblamed => hblamed.mono hvisits.faults.subset
    · exact hnew

end Walk

/-! ### Models -/

/-- What the model of a node shows is what the node declares, and what it leaves out has a node to
blame. -/
inductive Draft.Explained (g : Graph) (r : Resolver) (Blamed : NodeId → Prop) (annotations : Bool)
    (id : NodeId) (d : Draft) : Prop where
  /-- The model of a class shows its base, the types of its members, and its subtypes. -/
  | record {m : Model.Class} {node : Node} {shape : Schema.Shape}
      (template : d.template = Template.Name.class) (model : d.model = m.toValue)
      (found : g.node? id = some node) (kind : node.kind = .object shape)
      (base : ∀ base, shape.base = some base →
        Contract.NamedOrBlamed g r Blamed base m.baseName)
      (baseless : shape.base = none → m.baseName = none)
      (properties : List.Forall₂
        (fun p q => q.rawName = p.name ∧ ∃ t : TypeRef, t.Explained g r Blamed p.schema ∧
          q.typeName = t.memberText (q.nullable || !q.required) annotations)
        (shape.properties.filter fun p => Walk.inheritedProperty g id != some p.name)
        m.properties)
      (discriminator : ∀ d, shape.discriminator = some d → ∃ subs,
        Contract.SubtypesExplained g r Blamed d.mapping subs ∧
        m.discriminator = some ⟨stringLiteral d.propertyName,
          subs.map fun sub => ⟨stringLiteral sub.value, sub.typeName⟩⟩)
      (flat : shape.discriminator = none → m.discriminator = none)
  /-- The model of an enumeration has no types in it. -/
  | enumeration {m : Model.Enum} {node : Node} {values : List Json.Value}
      (template : d.template = Template.Name.enum) (model : d.model = m.toValue)
      (found : g.node? id = some node) (kind : node.kind = .enumeration values)
  /-- The model of a union shows the types of its cases. -/
  | union {m : Model.NamedUnion} {node : Node} {variants : List NodeId}
      (template : d.template = Template.Name.namedUnion) (model : d.model = m.toValue)
      (found : g.node? id = some node) (kind : node.kind = .union variants)
      (cases : List.Forall₂
        (fun variant v => ∃ t : TypeRef, t.Explained g r Blamed variant ∧
          v.typeName = t.text) variants m.variants)

/-- The model of a contract is explained if the contract is. -/
theorem Contract.Explained.draft {g : Graph} {r : Resolver} {Blamed : NodeId → Prop}
    {c : Contract} (h : c.Explained g r Blamed) (s : Settings) :
    (c.draft s).Explained g r Blamed s.nullableAnnotations c.node := by
  obtain ⟨node, hnode, h⟩ := h
  cases hbody : c.body with
  | record record =>
    simp only [hbody] at h
    obtain ⟨shape, hkind, hrecord⟩ := h
    obtain ⟨htemplate, -, hmodel⟩ := draft_of_record s hbody
    refine .record htemplate hmodel hnode hkind hrecord.base hrecord.baseless ?_ ?_ ?_
    · rw [Model.ofRecord, List.forall₂_map_right_iff]
      exact hrecord.members.imp fun p m hm => ⟨hm.1, m.type, hm.2, rfl⟩
    · intro d hd
      obtain ⟨subs, hhierarchy, hsubs⟩ := hrecord.hierarchy d hd
      exact ⟨subs, hsubs, by rw [Model.ofRecord, hhierarchy]; rfl⟩
    · intro hnone
      rw [Model.ofRecord, hrecord.flat hnone]
      rfl
  | enumeration e =>
    simp only [hbody] at h
    obtain ⟨values, hkind⟩ := h
    obtain ⟨htemplate, hmodel⟩ := draft_of_enumeration s hbody
    exact .enumeration htemplate hmodel hnode hkind
  | union u =>
    simp only [hbody] at h
    obtain ⟨variants, hkind, hcases⟩ := h
    obtain ⟨htemplate, hmodel⟩ := draft_of_union s hbody
    refine .union htemplate hmodel hnode hkind ?_
    rw [Model.ofUnion, List.forall₂_map_right_iff]
    exact hcases.imp fun variant k hk => ⟨k.type, hk, rfl⟩

/-- **Faults are true and complete.** In the plan for a sound graph every fault says what is the
case, and no problem is noted twice. Every type in a contract is that of its node, or a fault is
for the node that failed; so is one if the base of a class or an entry of its mapping is missing.
The models that templates are given show just that, with whatever settings. When the walk ends, no
fault stays behind in its resolver. -/
theorem faults_explain (g : Graph) (rootName : Option String) (p : Plan)
    (hvalid : g.validate = .ok ()) (hp : Plan.ofGraph g rootName = some p) :
    (∀ f ∈ p.faults, ∃ node, g.node? f.node = some node ∧
      (f.kind = .emptyUnion → node.kind = .union []) ∧
      (f.kind = .unnamed → (∀ target, node.kind ≠ .reference target) ∧
        (∀ name, node.declaredName = some name → Identifier.typeName? name = none) ∧
        ∀ hint, f.hint = some hint → Identifier.typeName? hint = none)) ∧
    (p.faults.Pairwise fun f f' => ¬ (f.node = f'.node ∧ f.kind = f'.kind)) ∧
    ∃ w, Walk.run g (Walk.visitBound g) {} [⟨g.root, rootName, true⟩] = some w ∧
      p.events = w.events ∧ w.resolver.pending = [] ∧
      ∀ c ∈ p.contracts, c.Explained g w.resolver (fun id => ∃ f ∈ p.faults, f.node = id) ∧
        ∀ s : Settings, (c.draft s).Explained g w.resolver
          (fun id => ∃ f ∈ p.faults, f.node = id) s.nullableAnnotations c.node := by
  simp only [Plan.ofGraph, Option.bind_eq_bind, Option.bind_eq_some_iff] at hp
  obtain ⟨w, hrun, hp⟩ := hp
  obtain rfl := by simpa using hp
  obtain ⟨hw, hcontracts⟩ := Walk.Reached.explained hvalid (Walk.run_steps hrun)
  refine ⟨fun f hf => ?_, hw.apart, w, hrun, rfl, hw.pending, fun c hc =>
    ⟨hcontracts c hc, fun s => (hcontracts c hc).draft s⟩⟩
  obtain ⟨node, hnode, htrue⟩ := hw.isTrue f hf
  refine ⟨node, hnode, fun hkind => ?_, fun hkind => ?_⟩
  · simpa only [hkind] using htrue
  · simp only [hkind, List.mem_append, Option.mem_toList] at htrue
    exact ⟨htrue.1, fun name hname => htrue.2 name (.inl hname),
      fun hint hhint => htrue.2 hint (.inr hhint)⟩

/-- A parcel with a grid of nothing, a label that may be such a grid, two properties of an
enumeration without a name, a mode with a name, data of any type, and a subtype for two values. -/
def parcels : Graph where
  root := 0
  nodes := #[
    { Node.ofKind (.object {
        properties := [⟨"grid", 1, true, false, false, none, []⟩,
          ⟨"label", 4, true, false, false, none, []⟩, ⟨"?", 6, true, false, false, none, []⟩,
          ⟨"!", 6, true, false, false, none, []⟩, ⟨"mode", 8, true, false, false, none, []⟩,
          ⟨"data", 9, true, false, false, none, []⟩]
        base := none
        isAbstract := false
        discriminator := some ⟨"type", [⟨"", 7⟩, ⟨"air", 7⟩]⟩ }) with nameHint := some "Parcel" },
    Node.ofKind (.array 2), Node.ofKind (.array 3), Node.ofKind (.union []),
    Node.ofKind (.union [5, 1]), Node.ofKind (.primitive .string none),
    Node.ofKind (.enumeration [.string "a"]), Node.ofKind (.object ⟨[], some 0, false, none⟩),
    { Node.ofKind (.union [5, 2]) with nameHint := some "Mode" },
    Node.ofKind (.primitive .any none)]

/-- The type of every value stands in parcels where data may be anything, and else for three nodes
with a fault each: at the bottom of the grid, wherever that is mentioned, for the enumeration, and
for the value of the mapping that names nothing. -/
theorem faults_explain_parcels :
    ∃ (p : Plan) (w : Walk), parcels.validate = .ok () ∧ Plan.ofGraph parcels none = some p ∧
      p.faults = [⟨3, some "gridItemItem", .emptyUnion⟩, ⟨6, some "?", .unnamed⟩,
        ⟨7, some "", .unnamed⟩] ∧
      p.contracts.map (fun c => (c.name, c.types.map TypeRef.text, c.relatives)) =
        [("Parcel", ["object", "OneOf<string, object>", "object", "object", "Mode", "object"],
          ["Air"]), ("Mode", ["string", "object"], []), ("Air", [], ["Parcel"])] ∧
      p.events = w.events ∧ w.resolver.pending = [] ∧
      ∀ c ∈ p.contracts, c.Explained parcels w.resolver (fun id => ∃ f ∈ p.faults, f.node = id) ∧
        ∀ s : Settings, (c.draft s).Explained parcels w.resolver
          (fun id => ∃ f ∈ p.faults, f.node = id) s.nullableAnnotations c.node := by
  have hvalid : parcels.validate = .ok () := by decide +kernel
  have hfaults : (Plan.ofGraph parcels none).map Plan.faults =
      some [⟨3, some "gridItemItem", .emptyUnion⟩, ⟨6, some "?", .unnamed⟩,
        ⟨7, some "", .unnamed⟩] := by
    decide +kernel
  have hcontracts : (Plan.ofGraph parcels none).map (fun p =>
      p.contracts.map fun c => (c.name, c.types.map TypeRef.text, c.relatives)) =
      some [("Parcel", ["object", "OneOf<string, object>", "object", "object", "Mode", "object"],
        ["Air"]), ("Mode", ["string", "object"], []), ("Air", [], ["Parcel"])] := by
    decide +kernel
  obtain ⟨p, hp, hpfaults⟩ := Option.map_eq_some_iff.1 hfaults
  rw [hp] at hcontracts
  obtain ⟨-, -, w, -, hevents, hpending, hexplained⟩ := faults_explain parcels none p hvalid hp
  exact ⟨p, w, hvalid, hp, hpfaults, Option.some.inj hcontracts, hevents, hpending, hexplained⟩

end ContractGen
