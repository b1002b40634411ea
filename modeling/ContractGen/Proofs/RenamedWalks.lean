import ContractGen.Generation
import ContractGen.Proofs.Renaming

/-!
# Walks through embedded graphs

Where a graph is embedded in another one, the walk through the other one is the walk through the
graph, with its nodes renamed: names, types, faults and tasks are the same at every step. The proof
follows the functions of the walk. Each commutes with the renaming, from looking up a name
(`Resolver.nameOf_rename`) over rendering a reference (`Embeds.typeRef`) and visiting a node
(`Embeds.visit`) to the whole walk (`Embeds.reached`, `Embeds.ofGraph`) and the file that is
generated (`Embeds.generate`).

One thing can be lost. The comment of a union goes to the property that declares it in place, and
such a property may be in the other graph only. `KeepsDocs f hide g g'` says that no more comments
are lost than those of the unions in `hide`.
-/

namespace ContractGen

open Schema (Graph Node NodeId Kind)
open Schema.Graph (Embeds)
open Contract (Subtype Hierarchy)

/-! ### Renaming what a walk holds -/

/-- The fault with its node renamed. -/
def Fault.rename (f : NodeId → NodeId) (fault : Fault) : Fault :=
  { fault with node := f fault.node }

/-- The task with its node renamed. -/
def Task.rename (f : NodeId → NodeId) (task : Task) : Task := { task with node := f task.node }

/-- The resolver with its nodes renamed. -/
def Resolver.rename (f : NodeId → NodeId) (r : Resolver) : Resolver :=
  { r with
    names := r.names.map fun entry => (f entry.1, entry.2)
    pending := r.pending.map (Fault.rename f) }

/-- The contract without its comment, if it is that of a hidden union. -/
def Contract.dropDoc (hide : NodeId → Bool) (c : Contract) : Contract :=
  { c with
    body :=
      match c.body with
      | .union u => .union { u with doc := if hide c.node then [] else u.doc }
      | body => body }

/-- The contract with its node renamed, without comments of hidden unions. -/
def Contract.rename (f : NodeId → NodeId) (hide : NodeId → Bool) (c : Contract) : Contract :=
  { c.dropDoc hide with node := f c.node }

/-- The event with its node renamed. -/
def Event.rename (f : NodeId → NodeId) (hide : NodeId → Bool) : Event → Event
  | .fault problem => .fault (problem.rename f)
  | .declare c => .declare (c.rename f hide)

/-- The walk with its nodes renamed. -/
def Walk.rename (f : NodeId → NodeId) (hide : NodeId → Bool) (w : Walk) : Walk where
  resolver := w.resolver.rename f
  visited := w.visited.map f
  events := w.events.map (Event.rename f hide)

/-- The plan with its nodes renamed. -/
def Plan.rename (f : NodeId → NodeId) (hide : NodeId → Bool) (p : Plan) : Plan :=
  { p with events := p.events.map (Event.rename f hide) }

/-- The comment of a union with a name: its description, unless some property declares it in place.
Other nodes have none. -/
def Schema.Graph.comment (g : Graph) (i : NodeId) : List String :=
  match g.node? i with
  | none => []
  | some node =>
    match node.kind with
    | .union _ => if (Walk.inlineNodes g).contains i then [] else docLines node.summary
    | _ => []

/-- The unions of a graph have their comments in the other one, too, but for those in `hide`. -/
def Schema.Graph.KeepsDocs (f : NodeId → NodeId) (hide : NodeId → Bool) (g g' : Graph) : Prop :=
  ∀ i < g.size, g'.comment (f i) = if hide i then [] else g.comment i

theorem Schema.Graph.comment_of_union {g : Graph} {i : NodeId} {node : Node}
    {variants : List NodeId} (hnode : g.node? i = some node) (hkind : node.kind = .union variants) :
    g.comment i = if (Walk.inlineNodes g).contains i then [] else docLines node.summary := by
  simp only [comment, hnode, hkind]

open Schema.Graph (KeepsDocs)

variable {f : NodeId → NodeId} {hide : NodeId → Bool} {g g' : Graph}

/-! ### Names -/

namespace Resolver

variable {r : Resolver} {i : NodeId}

theorem nameOf_rename (hf : Function.Injective f) (r : Resolver) (i : NodeId) :
    (r.rename f).nameOf (f i) = r.nameOf i := by
  simp only [nameOf, rename]
  induction r.names with
  | nil => rfl
  | cons entry rest ih =>
    obtain ⟨j, name⟩ := entry
    simp only [List.map_cons, List.lookup_cons, hf.beq_eq, ih]

theorem isInline_rename (hf : Function.Injective f) (r : Resolver) (i : NodeId) (node : Node) :
    (r.rename f).isInline (f i) (node.rename f) = r.isInline i node := by
  simp only [isInline, Node.declaredName_rename, nameOf_rename hf]

theorem name?_rename (hf : Function.Injective f) (r : Resolver) (i : NodeId) (hint : String) :
    (r.rename f).name? (f i) hint = (r.name? i hint).map fun x => (x.1, x.2.rename f) := by
  cases hname : r.nameOf i with
  | some name => rw [name?_of_named (nameOf_rename hf r i ▸ hname), name?_of_named hname]; rfl
  | none =>
    rw [name?_of_unnamed (nameOf_rename hf r i ▸ hname), name?_of_unnamed hname, Option.map_map]
    rfl

theorem settleCase_rename (r : Resolver) (out : Except Fault TypeRef) :
    (r.rename f).settleCase (out.mapError (Fault.rename f)) =
      ((r.settleCase out).1.rename f, (r.settleCase out).2) := by
  cases out with
  | ok t => rfl
  | error fault => simp [Except.mapError, settleCase, rename]

theorem caseRefs_rename {render render' : Resolver → NodeId → Option String →
      Option (Resolver × Except Fault TypeRef)} {variants : List NodeId}
    (h : ∀ variant ∈ variants, ∀ r hint, render' (rename f r) (f variant) hint =
      (render r variant hint).map fun x => (x.1.rename f, x.2.mapError (Fault.rename f)))
    (hint : Option String) (index : Nat) (r : Resolver) :
    caseRefs render' hint index (r.rename f) (variants.map f) =
      (caseRefs render hint index r variants).map fun x => (x.1.rename f, x.2) := by
  induction variants generalizing index r with
  | nil => rfl
  | cons variant rest ih =>
    simp only [List.map_cons, caseRefs, h variant List.mem_cons_self]
    cases render r variant (caseHint hint index) with
    | none => rfl
    | some x =>
      obtain ⟨r₁, out⟩ := x
      have hrest := ih (fun v hv => h v (List.mem_cons_of_mem _ hv)) (index + 1)
        (r₁.settleCase out).1
      simp only [Option.map_some, Option.bind_eq_bind, Option.bind_some, settleCase_rename, hrest]
      cases caseRefs render hint (index + 1) (r₁.settleCase out).1 rest <;> rfl

end Resolver

namespace Schema.Graph.Embeds

variable (e : Embeds f g g') {i : NodeId}

include e

theorem resolve (hi : i < g.size) (r : Resolver) (hint : Option String) :
    (r.rename f).resolve g' (f i) hint =
      ((r.resolve g i hint).map fun x => (x.1, x.2.rename f)).mapError (Fault.rename f) := by
  simp only [Resolver.resolve, e.dereference hi, e.node?_eq (e.dereference_lt hi),
    Resolver.nameOf_rename e.injective]
  cases r.nameOf (g.dereference i) with
  | some name => rfl
  | none =>
    have hdeclared : ((g.node? (g.dereference i)).map (Node.rename f)).bind Node.declaredName =
        (g.node? (g.dereference i)).bind Node.declaredName := by
      cases g.node? (g.dereference i) <;> rfl
    have hname : (r.rename f).name? (f (g.dereference i)) =
        Option.map (fun x => (x.1, x.2.rename f)) ∘ r.name? (g.dereference i) :=
      funext (Resolver.name?_rename e.injective r _)
    rw [hdeclared, hname, ← List.map_findSome?]
    cases List.findSome? (r.name? (g.dereference i)) _ <;> rfl

theorem namedRef (hi : i < g.size) (r : Resolver) (hint : Option String) (isValue : Bool) :
    (r.rename f).namedRef g' (f i) hint isValue =
      ((r.namedRef g i hint isValue).1.rename f,
        (r.namedRef g i hint isValue).2.mapError (Fault.rename f)) := by
  simp only [Resolver.namedRef, e.resolve hi]
  cases r.resolve g i hint <;> rfl

/-! ### References -/

theorem descend (hi : i < g.size) (depth : Nat) (r : Resolver) (hint : Option String) :
    Resolver.descend g' depth (r.rename f) (f i) hint =
      (Resolver.descend g depth r i hint).map fun x =>
        (x.1.rename f, x.2.mapError (Fault.rename f)) := by
  induction depth generalizing i r hint with
  | zero => rfl
  | succ depth ih =>
    have hlt := e.dereference_lt hi
    obtain ⟨node, hnode⟩ := exists_node_of_lt hlt
    have hnode' : g'.node? (f (g.dereference i)) = some (node.rename f) := e.node _ _ hnode
    simp only [Resolver.descend, e.dereference hi, hnode, hnode', Node.kind_rename]
    cases hkind : node.kind with
    | primitive type format => rfl
    | reference target => rfl
    | enumeration values => simp only [Kind.rename, e.namedRef hlt, Option.map_some]
    | object shape => simp only [Kind.rename, e.namedRef hlt, Option.map_some]
    | array items =>
      have hitems : items < g.size := e.child_lt hnode (by simp [hkind, Kind.children])
      simp only [Kind.rename, ih hitems]
      cases Resolver.descend g depth r items (Resolver.itemHint hint) with
      | none => rfl
      | some x => obtain ⟨r₁, _ | _⟩ := x <;> rfl
    | union variants =>
      have hvariants : ∀ v ∈ variants, v < g.size :=
        fun v hv => e.child_lt hnode (by simpa [hkind, Kind.children] using hv)
      simp only [Kind.rename, List.isEmpty_map, Resolver.isInline_rename e.injective,
        List.length_map]
      split_ifs
      · rfl
      · rw [Resolver.caseRefs_rename fun v hv r hint => ih (hvariants v hv) r hint]
        cases Resolver.caseRefs (Resolver.descend g depth) hint 0 r variants <;> rfl
      · simp only [e.namedRef hlt, Option.map_some]

/-- **References are rendered alike.** -/
theorem typeRef (hi : i < g.size) (r : Resolver) (hint : Option String) :
    (r.rename f).typeRef g' (f i) hint =
      (r.typeRef g i hint).map fun x => (x.1.rename f, x.2.mapError (Fault.rename f)) := by
  -- the bound of the larger graph cuts nothing off, either
  rw [Resolver.typeRef, e.descend hi,
    Resolver.descend_eq_typeRef (Nat.lt_succ_of_le e.size_le)]

end Schema.Graph.Embeds

/-! ### Faults -/

namespace Walk

variable {w : Walk}

theorem filterMap_faultOf?_rename (events : List Event) :
    (events.map (Event.rename f hide)).filterMap faultOf? =
      (events.filterMap faultOf?).map (Fault.rename f) := by
  simp only [List.filterMap_map, List.map_filterMap]
  congr 1
  funext event
  cases event <;> rfl

theorem filterMap_contractOf?_rename (events : List Event) :
    (events.map (Event.rename f hide)).filterMap contractOf? =
      (events.filterMap contractOf?).map (Contract.rename f hide) := by
  simp only [List.filterMap_map, List.map_filterMap]
  congr 1
  funext event
  cases event <;> rfl

theorem faults_rename (w : Walk) : (w.rename f hide).faults = w.faults.map (Fault.rename f) :=
  filterMap_faultOf?_rename w.events

theorem isSameProblem_rename (hf : Function.Injective f) (a b : Fault) :
    (a.rename f).isSameProblem (b.rename f) = a.isSameProblem b := by
  simp only [Fault.isSameProblem, Fault.rename, hf.beq_eq]

theorem report_rename (hf : Function.Injective f) (w : Walk) (fault : Fault) :
    (w.rename f hide).report (fault.rename f) = (w.report fault).rename f hide := by
  have hany : (w.rename f hide).faults.any (fault.rename f).isSameProblem =
      w.faults.any fault.isSameProblem := by
    rw [faults_rename, List.any_map]
    congr 1
    funext other
    exact isSameProblem_rename hf fault other
  simp only [report, hany]
  split_ifs
  · rfl
  · simp [rename, Event.rename]

theorem reportAll_rename (hf : Function.Injective f) (w : Walk) (fs : List Fault) :
    (w.rename f hide).reportAll (fs.map (Fault.rename f)) = (w.reportAll fs).rename f hide := by
  induction fs generalizing w with
  | nil => rfl
  | cons fault rest ih =>
    simp only [reportAll, List.map_cons, List.foldl_cons, report_rename hf]
    exact ih (w.report fault)

theorem declare_rename {w : Walk} {c c' : Contract} (h : c' = c.rename f hide) :
    (w.rename f hide).declare c' = (w.declare c).rename f hide := by
  simp [declare, rename, Event.rename, h]

end Walk

/-! ### Classes and unions -/

namespace Schema.Graph.Embeds

variable (e : Embeds f g g') {i : NodeId}

include e

theorem walkName? (hi : i < g.size) (w : Walk) (hint : Option String) :
    (w.rename f hide).name? g' (f i) hint =
      ((w.name? g i hint).1.rename f hide, (w.name? g i hint).2) := by
  have hresolver : (w.rename f hide).resolver = w.resolver.rename f := rfl
  simp only [Walk.name?, hresolver, e.resolve hi]
  cases w.resolver.resolve g i hint with
  | ok named => rfl
  | error fault => exact congrArg (·, none) (Walk.report_rename e.injective w fault)

theorem walkTypeRef (hi : i < g.size) (w : Walk) (hint : String) :
    (w.rename f hide).typeRef g' (f i) hint =
      (w.typeRef g i hint).map fun x => (x.1.rename f hide, x.2) := by
  have hresolver : (w.rename f hide).resolver = w.resolver.rename f := rfl
  simp only [Walk.typeRef, hresolver, e.typeRef hi]
  cases w.resolver.typeRef g i (some hint) with
  | none => rfl
  | some x =>
    obtain ⟨r, out⟩ := x
    -- pending faults are noted first, whatever comes out
    have hpending : (Walk.reportAll { w.rename f hide with resolver := (r.rename f).takeFaults.2 }
        (r.rename f).takeFaults.1) =
        (Walk.reportAll { w with resolver := r.takeFaults.2 } r.takeFaults.1).rename f hide :=
      Walk.reportAll_rename e.injective { w with resolver := r.takeFaults.2 } r.pending
    cases out with
    | ok t => simp [Except.mapError, hpending]
    | error fault => simp [Except.mapError, hpending, Walk.report_rename e.injective]

theorem member (w : Walk) {p : Property} (hp : p.schema < g.size) :
    (w.rename f hide).member g' (p.rename f) =
      (w.member g p).map fun x => (x.1.rename f hide, x.2.1, x.2.2.map (Task.rename f)) := by
  have hname : (p.rename f).name = p.name := rfl
  have hschema : (p.rename f).schema = f p.schema := rfl
  simp only [Walk.member, hname, hschema, e.walkTypeRef hp, e.node?_dereference hp]
  cases w.typeRef g p.schema p.name with
  | none => rfl
  | some x =>
    obtain ⟨w₁, type⟩ := x
    have hdate : ((g.node? (g.dereference p.schema)).map (Node.rename f)).map
        (fun n => Walk.isDateNode n.kind) =
        (g.node? (g.dereference p.schema)).map fun n => Walk.isDateNode n.kind := by
      rw [Option.map_map]
      congr 1
      funext node
      cases hkind : node.kind <;> simp [hkind, Kind.rename, Walk.isDateNode]
    have hsummary : Walk.propertySummary (p.rename f)
        ((g.node? (g.dereference p.schema)).map (Node.rename f)) =
        Walk.propertySummary p (g.node? (g.dereference p.schema)) := by
      cases g.node? (g.dereference p.schema) <;> rfl
    simp only [Option.map_some, Option.bind_eq_bind, Option.bind_some, hdate, hsummary]
    cases type <;> rfl

theorem members (hide : NodeId → Bool) (w : Walk) (ps : List Property)
    (hps : ∀ p ∈ ps, p.schema < g.size) :
    (w.rename f hide).members g' (ps.map (Property.rename f)) =
      (w.members g ps).map fun x => (x.1.rename f hide, x.2.1, x.2.2.map (Task.rename f)) := by
  induction ps generalizing w with
  | nil => rfl
  | cons p rest ih =>
    simp only [List.map_cons, Walk.members, e.member w (hps p List.mem_cons_self)]
    cases w.member g p with
    | none => rfl
    | some x =>
      have hrest := ih x.1 fun q hq => hps q (List.mem_cons_of_mem _ hq)
      simp only [Option.map_some, Option.bind_eq_bind, Option.bind_some, hrest]
      cases x.1.members g rest with
      | none => rfl
      | some y => simp

theorem base (hide : NodeId → Bool) (w : Walk) (typeName : String) (base : Option NodeId)
    (hbase : ∀ b ∈ base, b < g.size) :
    (w.rename f hide).base g' typeName (base.map f) =
      ((w.base g typeName base).1.rename f hide, (w.base g typeName base).2.1,
        (w.base g typeName base).2.2.map (Task.rename f)) := by
  cases base with
  | none => rfl
  | some b =>
    simp only [Option.map_some, Walk.base, e.walkName? (hbase b rfl)]
    obtain ⟨w₁, _ | name⟩ := w.name? g b (some (typeName ++ "Base")) <;> rfl

theorem subtypes (hide : NodeId → Bool) (w : Walk) (mapping : List Mapping)
    (hmapping : ∀ m ∈ mapping, m.target < g.size) :
    (w.rename f hide).subtypes g' (mapping.map (Mapping.rename f)) =
      ((w.subtypes g mapping).1.rename f hide, (w.subtypes g mapping).2.1,
        (w.subtypes g mapping).2.2.map (Task.rename f)) := by
  induction mapping generalizing w with
  | nil => rfl
  | cons m rest ih =>
    have hrest := fun w => ih w fun q hq => hmapping q (List.mem_cons_of_mem _ hq)
    simp only [List.map_cons, Walk.subtypes, Mapping.rename,
      e.walkName? (hmapping m List.mem_cons_self)]
    obtain ⟨w₁, _ | name⟩ := w.name? g m.target (some m.value)
    · exact hrest w₁
    · simp only [hrest w₁]
      rfl

theorem hierarchy (hide : NodeId → Bool) (w : Walk) (d : Option Discriminator)
    (hd : ∀ t ∈ (d.map fun d => d.mapping.map (·.target)).getD [], t < g.size) :
    (w.rename f hide).hierarchy g' (d.map (Discriminator.rename f)) =
      ((w.hierarchy g d).1.rename f hide, (w.hierarchy g d).2.1,
        (w.hierarchy g d).2.2.map (Task.rename f)) := by
  cases d with
  | none => rfl
  | some d =>
    have hsubtypes := e.subtypes hide { w with resolver := { w.resolver with
        features := { w.resolver.features with inheritance := true } } } d.mapping
      fun m hm => hd m.target (List.mem_map_of_mem hm)
    simp only [Option.map_some, Walk.hierarchy, Discriminator.rename]
    exact congrArg (fun x : Walk × List Subtype × List Task =>
      (x.1, some (Hierarchy.mk d.propertyName x.2.1), x.2.2)) hsubtypes

theorem declareRecord (w : Walk) {node : Node} {shape : Shape} (hnode : g.node? i = some node)
    (hkind : node.kind = .object shape) (typeName : String) :
    (w.rename f hide).declareRecord g' (f i) (node.rename f) (shape.rename f) typeName =
      (w.declareRecord g i node shape typeName).map fun x =>
        (x.1.rename f hide, x.2.map (Task.rename f)) := by
  have hchildren : ∀ c, c ∈ shape.base.toList ++ shape.properties.map (·.schema) ++
      (shape.discriminator.map fun d => d.mapping.map (·.target)).getD [] → c < g.size :=
    fun c hc => e.child_lt hnode (by rw [hkind]; exact hc)
  have hbase := e.base hide w typeName shape.base fun b hb =>
    hchildren b (by simp [Option.mem_def.1 hb])
  -- properties are hidden by their names, which stay
  have hshown : (shape.properties.map (Property.rename f)).filter
      (fun p => Walk.inheritedProperty g i != some p.name) =
      (shape.properties.filter fun p => Walk.inheritedProperty g i != some p.name).map
        (Property.rename f) := by
    rw [List.filter_map]
    rfl
  have hmembers := e.members hide (w.base g typeName shape.base).1
    (shape.properties.filter fun p => Walk.inheritedProperty g i != some p.name) <| by
      intro p hp
      refine hchildren _ ?_
      have hmem := List.mem_map_of_mem (f := Property.schema) (List.mem_of_mem_filter hp)
      simp [hmem]
  simp only [Walk.declareRecord, Shape.rename, hbase, hshown,
    e.inheritedProperty (lt_size_of_node? hnode), hmembers]
  cases (w.base g typeName shape.base).1.members g
      (shape.properties.filter fun p => Walk.inheritedProperty g i != some p.name) with
  | none => rfl
  | some x =>
    have hhierarchy := e.hierarchy hide x.1 shape.discriminator fun t ht =>
      hchildren t (List.mem_append_right _ ht)
    simp only [Option.map_some, Option.bind_eq_bind, Option.bind_some, hhierarchy,
      Node.summary_rename]
    refine Option.some_inj.2 (Prod.ext (Walk.declare_rename rfl) ?_)
    simp

theorem cases (typeName : String) (w : Walk) (used : List String) (index : Nat)
    {variants : List NodeId} (hvariants : ∀ v ∈ variants, v < g.size) :
    Walk.cases g' typeName (w.rename f hide) used index (variants.map f) =
      (Walk.cases g typeName w used index variants).map fun x =>
        (x.1.rename f hide, x.2.1, x.2.2.map (Task.rename f)) := by
  induction variants generalizing w used index with
  | nil => rfl
  | cons variant rest ih =>
    have hvariant := hvariants variant List.mem_cons_self
    have hhint : Walk.caseHint g' typeName (f variant) index =
        Walk.caseHint g typeName variant index := by
      simp only [Walk.caseHint, e.node?_dereference hvariant]
      cases g.node? (g.dereference variant) <;> rfl
    simp only [List.map_cons, Walk.cases, hhint, e.walkTypeRef hvariant]
    cases w.typeRef g variant (Walk.caseHint g typeName variant index) with
    | none => rfl
    | some x =>
      obtain ⟨w₁, type⟩ := x
      simp only [Option.map_some, Option.bind_eq_bind, Option.bind_some,
        ih w₁ _ _ fun v hv => hvariants v (List.mem_cons_of_mem _ hv)]
      cases Walk.cases g typeName w₁ _ (index + 1) rest with
      | none => rfl
      | some y => cases type <;> simp [Task.rename]

theorem declareUnion (hdocs : KeepsDocs f hide g g') (w : Walk) {node : Node}
    {variants : List NodeId} (hnode : g.node? i = some node) (hkind : node.kind = .union variants)
    (typeName : String) :
    (w.rename f hide).declareUnion g' (f i) (node.rename f) (variants.map f) typeName =
      (w.declareUnion g i node variants typeName).map fun x =>
        (x.1.rename f hide, x.2.map (Task.rename f)) := by
  have hvariants : ∀ v ∈ variants, v < g.size :=
    fun v hv => e.child_lt hnode (by simpa [hkind, Kind.children] using hv)
  have hkind' : (node.rename f).kind = .union (variants.map f) := by
    rw [Node.kind_rename, hkind]
    rfl
  have hdoc : (if (Walk.inlineNodes g').contains (f i) then [] else docLines node.summary) =
      if hide i then [] else
        if (Walk.inlineNodes g).contains i then [] else docLines node.summary := by
    rw [← comment_of_union hnode hkind, ← hdocs i (lt_size_of_node? hnode),
      comment_of_union (e.node i node hnode) hkind', Node.summary_rename]
  simp only [Walk.declareUnion, e.cases typeName w [] 0 hvariants, List.length_map,
    Node.summary_rename, hdoc]
  cases Walk.cases g typeName w [] 0 variants with
  | none => rfl
  | some x =>
    refine Option.some_inj.2 (Prod.ext ?_ rfl)
    exact Walk.declare_rename (w := { x.1 with resolver := { x.1.resolver with
      features := x.1.resolver.features.withNamedUnion variants.length } }) rfl

/-- Comments are lost just where the other graph declares more unions in place. -/
theorem keepsDocs (hinline : ∀ i < g.size,
      f i ∈ Walk.inlineNodes g' ↔ i ∈ Walk.inlineNodes g ∨ hide i = true) :
    KeepsDocs f hide g g' := by
  intro i hi
  obtain ⟨node, hnode⟩ := exists_node_of_lt hi
  simp only [comment, hnode, e.node i node hnode, Node.kind_rename]
  cases hkind : node.kind with
  | union variants =>
    simp only [Kind.rename, List.contains_iff_mem, hinline i hi, Node.summary_rename]
    split_ifs <;> simp_all
  | object shape => simp [Kind.rename]
  | enumeration values => simp [Kind.rename]
  | primitive type format => simp [Kind.rename]
  | array items => simp [Kind.rename]
  | reference target => simp [Kind.rename]

/-! ### Visits -/

theorem declareNamed (hi : i < g.size) (w : Walk) (hint : Option String)
    {body body' : Walk → String → Option (Walk × List Task)}
    (hbody : ∀ w name, body' (w.rename f hide) name =
      (body w name).map fun x => (x.1.rename f hide, x.2.map (Task.rename f))) :
    (w.rename f hide).declareNamed g' (f i) hint body' =
      (w.declareNamed g i hint body).map fun x =>
        (x.1.rename f hide, x.2.map (Task.rename f)) := by
  simp only [Walk.declareNamed, e.walkName? hi]
  obtain ⟨w₁, _ | name⟩ := w.name? g i hint
  · rfl
  · exact hbody w₁ name

theorem enter (hdocs : KeepsDocs f hide g g') (w : Walk) {node : Node}
    (hnode : g.node? i = some node) (hint : Option String) (isRoot : Bool) :
    (w.rename f hide).enter g' (f i) (node.rename f) hint isRoot =
      (w.enter g i node hint isRoot).map fun x =>
        (x.1.rename f hide, x.2.map (Task.rename f)) := by
  have hi := lt_size_of_node? hnode
  simp only [Walk.enter, Node.kind_rename]
  cases hkind : node.kind with
  | enumeration values =>
    refine e.declareNamed hi w hint fun w name => ?_
    exact Option.some_inj.2 (Prod.ext (Walk.declare_rename rfl) rfl)
  | object shape =>
    exact e.declareNamed hi w hint fun w name => e.declareRecord w hnode hkind name
  | array items => rfl
  | primitive type format => rfl
  | reference target => rfl
  | union variants =>
    have hnamed : (w.rename f hide).isNamedUnion (f i) (node.rename f) isRoot =
        w.isNamedUnion i node isRoot := by
      simp only [Walk.isNamedUnion, Node.declaredName_rename, Walk.rename,
        Resolver.nameOf_rename e.injective]
    simp only [Kind.rename, List.isEmpty_map, hnamed]
    split_ifs
    · exact congrArg (fun w => some (w, [])) (Walk.report_rename e.injective w ⟨i, hint, _⟩)
    · exact e.declareNamed hi w hint fun w name => e.declareUnion hdocs w hnode hkind name
    · refine Option.some_inj.2 (Prod.ext rfl (List.ext_getElem? fun k => ?_))
      simp [Function.comp_def, Task.rename]

/-- **Nodes are visited alike.** -/
theorem visit (hdocs : KeepsDocs f hide g g') (w : Walk) {task : Task}
    (htask : task.node < g.size) :
    (w.rename f hide).visit g' (task.rename f) =
      (w.visit g task).map fun x => (x.1.rename f hide, x.2.map (Task.rename f)) := by
  have hlt := e.dereference_lt htask
  obtain ⟨node, hnode⟩ := exists_node_of_lt hlt
  have hseen : (w.rename f hide).visited.contains (f (g.dereference task.node)) =
      w.visited.contains (g.dereference task.node) := by
    rw [Bool.eq_iff_iff, List.contains_iff_mem, List.contains_iff_mem]
    exact List.mem_map_of_injective e.injective
  simp only [Walk.visit, Task.rename, e.dereference htask, hseen, hnode, e.node _ _ hnode]
  split_ifs
  · rfl
  · exact e.enter hdocs { w with visited := g.dereference task.node :: w.visited } hnode task.hint
      task.isRoot

/-! ### Walks -/

/-- Tasks are for nodes of the graph, and a visit adds only such. -/
theorem tasks_lt {w w' : Walk} {task : Task} {more rest : List Task}
    (h : w.visit g task = some (w', more)) (htasks : ∀ t ∈ task :: rest, t.node < g.size) :
    ∀ t ∈ more ++ rest, t.node < g.size := by
  intro t ht
  rcases List.mem_append.1 ht with ht | ht
  · have hmem : t.node ∈ g.pointers (g.dereference task.node) :=
      (Walk.visit_visits h).sublist.subset (List.mem_map_of_mem ht)
    cases hnode : g.node? (g.dereference task.node) with
    | none => simp [pointers, hnode] at hmem
    | some node => exact e.child_lt hnode ((pointers_sublist hnode).subset hmem)
  · exact htasks t (List.mem_cons_of_mem _ ht)

/-- **The same steps lead through both graphs.** -/
theorem reached (hdocs : KeepsDocs f hide g g') {rootName : Option String} {w : Walk}
    {tasks : List Task} (h : Walk.Reached g rootName w tasks) :
    Walk.Reached g' rootName (w.rename f hide) (tasks.map (Task.rename f)) := by
  suffices hsteps : ∀ s : Walk × List Task,
      Relation.ReflTransGen (Walk.Step g) ({}, [⟨g.root, rootName, true⟩]) s →
      (∀ t ∈ s.2, t.node < g.size) ∧
        Walk.Reached g' rootName (s.1.rename f hide) (s.2.map (Task.rename f)) from
    (hsteps (w, tasks) h).2
  intro s hs
  induction hs with
  | refl =>
    refine ⟨by simpa using e.root_lt, ?_⟩
    have hroot : Task.rename f ⟨g.root, rootName, true⟩ = ⟨g'.root, rootName, true⟩ := by
      rw [e.root]
      rfl
    rw [List.map_singleton, hroot]
    exact .refl
  | tail _ hstep ih =>
    cases hstep with
    | @visit w w' task more rest hvisit =>
      obtain ⟨hlt, hreached⟩ := ih
      refine ⟨e.tasks_lt hvisit hlt, hreached.tail ?_⟩
      have hvisit' := e.visit hdocs w (hlt task List.mem_cons_self)
      rw [hvisit] at hvisit'
      simp only [List.map_cons, List.map_append]
      exact .visit hvisit'

theorem proceed (hdocs : KeepsDocs f hide g g') (n : Nat) (w : Walk) (tasks : List Task)
    (htasks : ∀ t ∈ tasks, t.node < g.size) :
    Walk.proceed g' n (w.rename f hide) (tasks.map (Task.rename f)) =
      (Walk.proceed g n w tasks).map (Walk.rename f hide) (List.map (Task.rename f)) := by
  induction n generalizing w tasks with
  | zero => cases tasks <;> rfl
  | succ n ih =>
    cases tasks with
    | nil => rfl
    | cons task rest =>
      simp only [List.map_cons, Walk.proceed, e.visit hdocs w (htasks task List.mem_cons_self)]
      cases hvisit : w.visit g task with
      | none => rfl
      | some x =>
        obtain ⟨w₁, more⟩ := x
        simp only [Option.map_some, ← List.map_append]
        exact ih w₁ (more ++ rest) (e.tasks_lt hvisit htasks)

/-- The walk through both graphs, each with its own bound. -/
theorem proceed_visitBound (hdocs : KeepsDocs f hide g g') (rootName : Option String) :
    Walk.proceed g' (Walk.visitBound g') {} [⟨g'.root, rootName, true⟩] =
      (Walk.proceed g (Walk.visitBound g) {} [⟨g.root, rootName, true⟩]).map
        (Walk.rename f hide) (List.map (Task.rename f)) := by
  -- neither bound cuts anything off, so both walks may have the sum of both
  have hsum := Plan.proceed_visitBound_add g ⟨g.root, rootName, true⟩ (Walk.visitBound g')
  have hsum' := Plan.proceed_visitBound_add g' ⟨g'.root, rootName, true⟩ (Walk.visitBound g)
  have hproceed := e.proceed hdocs (Walk.visitBound g + Walk.visitBound g') {}
    [⟨g.root, rootName, true⟩] (by simpa using e.root_lt)
  have hroot : [Task.mk g.root rootName true].map (Task.rename f) =
      [⟨g'.root, rootName, true⟩] := by
    rw [e.root]
    rfl
  have hempty : Walk.rename f hide {} = {} := rfl
  rwa [hroot, hempty, hsum, Nat.add_comm, hsum'] at hproceed

/-- **The plan is the same** but for the places of the nodes and the comments of hidden unions. -/
theorem ofGraph (hdocs : KeepsDocs f hide g g') (rootName : Option String) :
    Plan.ofGraph g' rootName = (Plan.ofGraph g rootName).map (Plan.rename f hide) := by
  simp only [Plan.ofGraph, Walk.run, e.proceed_visitBound hdocs]
  cases Walk.proceed g (Walk.visitBound g) {} [⟨g.root, rootName, true⟩] with | mk w left =>
  cases left <;> rfl

theorem contractsOf (hdocs : KeepsDocs f hide g g') (rootName : Option String) :
    Plan.contractsOf g' rootName =
      (Plan.contractsOf g rootName).map (Contract.rename f hide) := by
  simp only [Plan.contractsOf, Plan.eventsOf, e.proceed_visitBound hdocs]
  exact Walk.filterMap_contractOf?_rename _

end Schema.Graph.Embeds

/-! ### Files -/

/-- The file with the nodes of its faults renamed. -/
def GeneratedFile.rename (f : NodeId → NodeId) (file : GeneratedFile) : GeneratedFile :=
  { file with faults := file.faults.map (Fault.rename f) }

namespace Plan

variable {ε : Type} {render : Renderer ε} {s : Settings}

theorem faults_rename (p : Plan) : (p.rename f hide).faults = p.faults.map (Fault.rename f) :=
  Walk.filterMap_faultOf?_rename p.events

theorem contracts_rename (p : Plan) :
    (p.rename f hide).contracts = p.contracts.map (Contract.rename f hide) :=
  Walk.filterMap_contractOf?_rename p.events

theorem draft_rename {c : Contract} (h : hide c.node = false) :
    (c.rename f hide).draft s = c.draft s := by
  cases hbody : c.body <;> simp [Contract.draft, Contract.rename, Contract.dropDoc, hbody, h]

theorem unfinished_rename (contracts : List Contract) :
    unfinished render s (contracts.map (Contract.rename f fun _ => false)) =
      (unfinished render s contracts).map (GeneratedFile.rename f) := by
  have hdraft : ∀ c : Contract, ((c.rename f fun _ => false).draft s).render render =
      (c.draft s).render render := fun c => by rw [draft_rename rfl]
  simp only [unfinished, List.mapM_map, Function.comp_def, hdraft]
  cases contracts.mapM fun c => (c.draft s).render render <;> rfl

/-- If nothing is hidden, the same file is rendered. -/
theorem render_rename (p : Plan) :
    (p.rename f fun _ => false).render render s =
      (p.render render s).map (GeneratedFile.rename f) := by
  have hdrafts : (p.rename f fun _ => false).drafts s = p.drafts s := by
    have hcontracts : (p.rename f fun _ => false).contractDrafts s = p.contractDrafts s := by
      rw [contractDrafts, contracts_rename, List.map_map]
      exact List.map_congr_left fun c _ => draft_rename rfl
    rw [drafts, drafts, hcontracts]
    rfl
  simp only [Plan.render, hdrafts, faults_rename]
  cases (p.drafts s).mapM (Draft.render render) with
  | error e => rfl
  | ok artifacts =>
    show (assemble render s (artifacts.map Artifact.code) >>= _) =
      (assemble render s (artifacts.map Artifact.code) >>= _).map (GeneratedFile.rename f)
    cases assemble render s (artifacts.map Artifact.code) <;> rfl

end Plan

theorem Schema.Graph.Embeds.generate {ε : Type} (e : Embeds f g g')
    (hdocs : KeepsDocs f (fun _ => false) g g') (render : Renderer ε) (s : Settings) :
    ContractGen.generate render s g' =
      (ContractGen.generate render s g).map (GeneratedFile.rename f) := by
  simp only [ContractGen.generate, e.ofGraph hdocs, e.contractsOf hdocs]
  cases Plan.ofGraph g s.rootTypeName with
  | none => exact Plan.unfinished_rename _
  | some p =>
    simp only [Option.map_some, Plan.render_rename]
    cases p.render render s <;> rfl

end ContractGen
