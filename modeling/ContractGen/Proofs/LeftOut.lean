import ContractGen.Proofs.Actions
import ContractGen.Proofs.Closure
import ContractGen.Proofs.Explanations

/-!
# Nodes that are left out

A fault says that no name can be given to a node, under the hint of one place that mentions it. The
place does without the node. Nothing keeps that in mind: another place with a better hint may name
the node later, and then it is there after all, with a fault.

What holds is about time. A fault is noted only for a node without a name (`Walk.Notes`), so what
was declared before it neither is the node's nor mentions it (`Walk.Reached.clear_before`). The node
is left out of the whole file just if it never gets a name. If it gets one, some visit gives it, no
sooner than the fault is noted, at a place whose hint has an identifier
(`Walk.Reached.named_late`).

`left_out_iff_unnamed` says this of generated files, and `parcel` has a fault for a node that is
declared and mentioned.
-/

namespace ContractGen

open Schema (Graph Node NodeId Kind)
open Relation (ReflTransGen)

/-- The fault fits the names given so far: if it says that there is no name for its node, the node
has none. -/
def Fault.Fits (r : Resolver) (f : Fault) : Prop := f.kind = .unnamed → r.nameOf f.node = none

theorem Fault.Fits.of_names {r r' : Resolver} {f : Fault}
    (hr : ∀ i name, r.nameOf i = some name → r'.nameOf i = some name) (h : f.Fits r') :
    f.Fits r := by
  intro hkind
  have hnone : r'.nameOf f.node = none := h hkind
  cases hname : r.nameOf f.node with
  | none => rfl
  | some name =>
    rw [hr _ _ hname] at hnone
    cases hnone

/-! ### Faults of a descent -/

namespace Resolver

variable {g : Graph} {r r' : Resolver} {id : NodeId} {hint : Option String}

theorem fits_of_resolve {f : Fault} (h : r.resolve g id hint = .error f) : f.Fits r := by
  obtain ⟨name, -, hok⟩ | ⟨-, c, name, -, -, hok⟩ | ⟨hnone, -, herror⟩ := resolve_cases r g id hint
  · rw [hok] at h; cases h
  · rw [hok] at h; cases h
  · rw [herror] at h
    obtain rfl := Except.error.inj h
    exact fun _ => hnone

/-- Names stay, and what becomes pending fits. -/
structure Defers (r r' : Resolver) : Prop where
  /-- Names stay. -/
  names : ∀ i name, r.nameOf i = some name → r'.nameOf i = some name
  /-- The faults that become pending fit. -/
  pending : ∃ fs, r'.pending = r.pending ++ fs ∧ ∀ f ∈ fs, f.Fits r

namespace Defers

theorem refl (r : Resolver) : Defers r r := ⟨fun _ _ h => h, [], by simp, by simp⟩

theorem trans {r₁ : Resolver} (h : Defers r r₁) (h' : Defers r₁ r') : Defers r r' := by
  obtain ⟨fs, hpending, hfits⟩ := h.pending
  obtain ⟨fs', hpending', hfits'⟩ := h'.pending
  refine ⟨fun i name hi => h'.names i name (h.names i name hi), fs ++ fs', ?_, ?_⟩
  · rw [hpending', hpending, List.append_assoc]
  · intro f hf
    rcases List.mem_append.1 hf with hf | hf
    · exact hfits f hf
    · exact (hfits' f hf).of_names h.names

theorem of_resolve {name : String} (h : r.resolve g id hint = .ok (name, r')) : Defers r r' where
  names _ _ := (resolve_grows h).2.nameOf
  pending := ⟨[], by simp [(resolve_unchanged h).2], by simp⟩

/-- The fault of a case becomes pending; it may fit what the case started from only. -/
theorem settleCase {out : Except Fault TypeRef} {t : TypeRef} {r₁ r₂ : Resolver}
    (h : Defers r r₁) (hout : ∀ f, out = .error f → f.Fits r)
    (hsettle : r₁.settleCase out = (r₂, t)) : Defers r r₂ := by
  cases out with
  | ok t' =>
    obtain ⟨rfl, -⟩ := by simpa [Resolver.settleCase] using hsettle
    exact h
  | error f =>
    obtain ⟨rfl, -⟩ := by simpa [Resolver.settleCase] using hsettle
    obtain ⟨fs, hpending, hfits⟩ := h.pending
    refine ⟨h.names, fs ++ [f], by simp [hpending], fun f' hf' => ?_⟩
    rcases List.mem_append.1 hf' with hf' | hf'
    · exact hfits f' hf'
    · exact List.mem_singleton.1 hf' ▸ hout f rfl

end Defers

/-- **A descent has faults that fit**, in a sound graph. -/
theorem descend_fits (hvalid : g.validate = .ok ()) {depth : Nat} {out : Except Fault TypeRef}
    (hid : id < g.size) (h : descend g depth r id hint = some (r', out)) :
    Defers r r' ∧ ∀ f, out = .error f → f.Fits r := by
  refine descend_rule
    (P := fun r id _ r' out => id < g.size → Defers r r' ∧ ∀ f, out = .error f → f.Fits r)
    (Q := fun _ _ r variants r' _ => (∀ v ∈ variants, v < g.size) → Defers r r')
    ?missing ?builtin ?unknown ?array ?empty ?inline ?named ?unnamed ?nil ?cons
    depth r id hint r' out h hid
  case missing =>
    intro r id hint hnone hid
    obtain ⟨node, hnode, -⟩ := Graph.exists_dereferenced hvalid hid
    rw [hnone] at hnode
    cases hnode
  case builtin => exact fun r _ _ _ _ _ _ _ _ => ⟨.refl r, by simp⟩
  case unknown => exact fun r _ _ _ _ _ _ _ => ⟨.refl r, by simp⟩
  case array =>
    intro r id hint node items r' out hnode hkind ih hid
    obtain ⟨hdefers, hfits⟩ := ih
      (Graph.lt_size_of_child hvalid hnode (by simp [hkind, Kind.children]))
    refine ⟨hdefers, fun f hf => ?_⟩
    cases out with
    | ok t => cases hf
    | error f' => exact hfits f (by simpa [Except.map] using hf)
  case empty =>
    intro r id hint node _ _ _
    refine ⟨.refl r, fun f hf hkind => ?_⟩
    obtain rfl := Except.error.inj hf
    cases hkind
  case inline =>
    intro r id hint node variants r' cases hnode hkind _ _ ih hid
    have hdefers := ih fun v hv =>
      Graph.lt_size_of_child hvalid hnode (by simpa [hkind, Kind.children] using hv)
    exact ⟨⟨hdefers.names, hdefers.pending⟩, by simp⟩
  case named => exact fun r _ _ _ _ _ r' _ _ hok _ => ⟨.of_resolve hok, by simp⟩
  case unnamed =>
    intro r id hint node fault _ _ herror _
    refine ⟨.refl r, fun f hf => ?_⟩
    obtain rfl := Except.error.inj hf
    exact fits_of_resolve herror
  case nil => exact fun _ _ r _ => .refl r
  case cons =>
    intro hint index r variant rest r₁ out r₂ t r' cases hfirst hsettle hrest hvariants
    obtain ⟨hdefers, hfits⟩ := hfirst (hvariants variant List.mem_cons_self)
    have hlater := hrest fun v hv => hvariants v (List.mem_cons_of_mem _ hv)
    exact (hdefers.settleCase hfits hsettle).trans hlater

end Resolver

/-! ### Faults of a visit -/

theorem Schema.Graph.Mentions.lt_size {g : Graph} (hvalid : g.validate = .ok ()) {id : NodeId}
    (h : g.Mentions id) : id < g.size := by
  obtain ⟨i, node, hnode, rfl | hchild⟩ := h
  · exact Graph.lt_size_of_node? hnode
  · exact Graph.lt_size_of_child hvalid hnode hchild

namespace Walk

variable {g : Graph} {w w₁ w' : Walk}

/-- Nothing but faults happens, and these fit the names there were. -/
structure Notes (w w' : Walk) : Prop where
  /-- Names stay. -/
  names : ∀ i name, w.resolver.nameOf i = some name → w'.resolver.nameOf i = some name
  /-- No fault stays behind in the resolver. -/
  pending : w'.resolver.pending = []
  /-- The faults that are noted fit. -/
  events : ∃ fs : List Fault, w'.events = w.events ++ fs.map .fault ∧ ∀ f ∈ fs, f.Fits w.resolver

namespace Notes

theorem of_events_eq (hnames : ∀ i name, w.resolver.nameOf i = some name →
      w'.resolver.nameOf i = some name)
    (hpending : w'.resolver.pending = []) (hevents : w'.events = w.events) : Notes w w' :=
  ⟨hnames, hpending, [], by simp [hevents], by simp⟩

theorem trans (h : Notes w w₁) (h' : Notes w₁ w') : Notes w w' := by
  obtain ⟨fs, hevents, hfits⟩ := h.events
  obtain ⟨fs', hevents', hfits'⟩ := h'.events
  refine ⟨fun i name hi => h'.names i name (h.names i name hi), h'.pending, fs ++ fs', ?_, ?_⟩
  · rw [hevents', hevents, List.map_append, List.append_assoc]
  · intro f hf
    rcases List.mem_append.1 hf with hf | hf
    · exact hfits f hf
    · exact (hfits' f hf).of_names h.names

theorem report (h : Notes w w₁) {f : Fault} (hf : f.Fits w.resolver) :
    Notes w (w₁.report f) := by
  obtain ⟨fs, hevents, hfits⟩ := h.events
  unfold Walk.report
  split_ifs
  · exact h
  · refine ⟨h.names, h.pending, fs ++ [f], by simp [hevents], fun f' hf' => ?_⟩
    rcases List.mem_append.1 hf' with hf' | hf'
    · exact hfits f' hf'
    · exact List.mem_singleton.1 hf' ▸ hf

theorem reportAll (h : Notes w w₁) {fs : List Fault} (hfs : ∀ f ∈ fs, f.Fits w.resolver) :
    Notes w (w₁.reportAll fs) := by
  induction fs generalizing w₁ with
  | nil => exact h
  | cons f fs ih =>
    have hone : Notes w (w₁.report f) := h.report (hfs f List.mem_cons_self)
    exact ih hone fun f' hf' => hfs f' (List.mem_cons_of_mem _ hf')

end Notes

theorem typeRef_notes (hvalid : g.validate = .ok ()) (hpending : w.resolver.pending = [])
    {id : NodeId} {hint : String} {type : Option TypeRef} (hid : id < g.size)
    (h : w.typeRef g id hint = some (w', type)) : Notes w w' := by
  simp only [typeRef, Option.bind_eq_bind, Option.bind_eq_some_iff, Prod.exists] at h
  obtain ⟨r', out, hout, h⟩ := h
  obtain ⟨hdefers, hfits⟩ := Resolver.descend_fits hvalid hid hout
  obtain ⟨fs, hfs, hfsfits⟩ := hdefers.pending
  rw [hpending, List.nil_append] at hfs
  have hstart : Notes w { w with resolver := r'.takeFaults.2 } :=
    .of_events_eq hdefers.names rfl rfl
  have htaken := hstart.reportAll (hfs ▸ hfsfits)
  cases out with
  | ok t =>
    obtain ⟨rfl, -⟩ := by simpa using h
    exact htaken
  | error f =>
    obtain ⟨rfl, -⟩ := by simpa using h
    exact htaken.report (hfits f rfl)

/-- **An action notes faults that fit**, in a sound graph. -/
theorem Action.notes (hvalid : g.validate = .ok ()) (hpending : w.resolver.pending = [])
    (h : Action g w w') : Notes w w' := by
  have hidle : Notes w w := .of_events_eq (fun _ _ h => h) hpending rfl
  cases h with
  | mark id => exact .of_events_eq (fun _ _ h => h) hpending rfl
  | name hid hname =>
    obtain ⟨name, r', hok, -, rfl⟩ | ⟨f, herror, -, rfl⟩ := name?_cases hname
    · have hnames := (Resolver.Defers.of_resolve hok).names
      exact .of_events_eq hnames ((Resolver.resolve_unchanged hok).2.trans hpending) rfl
    · exact hidle.report (Resolver.fits_of_resolve herror)
  | refer hid htype => exact typeRef_notes hvalid hpending (hid.lt_size hvalid) htype
  | need features => exact .of_events_eq (fun _ _ h => h) hpending rfl
  | empty hint hnode hkind => exact hidle.report fun hunnamed => by cases hunnamed

theorem Acts.notes (hvalid : g.validate = .ok ()) (hpending : w.resolver.pending = [])
    (h : Acts g w w') : Notes w w' := by
  induction h with
  | refl => exact .of_events_eq (fun _ _ h => h) hpending rfl
  | tail _ haction ih => exact ih.trans (haction.notes hvalid ih.pending)

/-- **A visit notes faults that fit, and then declares at most one contract**, in a sound graph. -/
theorem visit_notes (hvalid : g.validate = .ok ()) (hpending : w.resolver.pending = [])
    {task : Task} {tasks : List Task} (h : w.visit g task = some (w', tasks)) :
    ∃ w₁, Notes w w₁ ∧ (w' = w₁ ∨ ∃ c, w' = w₁.declare c) := by
  obtain ⟨w₁, hacts, hend⟩ := visit_acts h
  exact ⟨w₁, Acts.notes hvalid hpending hacts, hend⟩

end Walk

/-! ### Before the fault -/

/-- A contract has nothing to do with a node: it is not that of the node and does not mention it. -/
def Contract.Omits (r : Resolver) (id : NodeId) (c : Contract) : Prop :=
  c.node ≠ id ∧ ∀ name ∈ c.mentions, r.nameOf id ≠ some name

namespace Walk

variable {g : Graph} {rootName : Option String} {w w' : Walk} {tasks : List Task}

theorem mem_contracts_iff_mem_events {c : Contract} : c ∈ w.contracts ↔ .declare c ∈ w.events := by
  simp only [contracts, List.mem_filterMap]
  constructor
  · rintro ⟨e, he, hc⟩
    cases e with
    | fault f => cases hc
    | declare c' => exact Option.some.inj hc ▸ he
  · exact fun hc => ⟨.declare c, hc, rfl⟩

theorem mem_faults_iff_mem_events {f : Fault} : f ∈ w.faults ↔ .fault f ∈ w.events := by
  simp only [faults, List.mem_filterMap]
  constructor
  · rintro ⟨e, he, hf⟩
    cases e with
    | fault f' => exact Option.some.inj hf ▸ he
    | declare c => cases hf
  · exact fun hf => ⟨.fault f, hf, rfl⟩

/-- A contract has nothing to do with a node without a name. -/
theorem Reached.omits_of_unnamed (h : Reached g rootName w tasks) {c : Contract}
    (hc : c ∈ w.contracts) {i : NodeId} (hi : w.resolver.nameOf i = none) :
    c.Omits w.resolver i := by
  refine ⟨?_, fun name _ hname => ?_⟩
  · rintro rfl
    rw [h.nameOf_of_mem c hc] at hi
    cases hi
  · rw [hi] at hname
    cases hname

/-- A contract that has nothing to do with a node never will: a name that it mentions stays with
its node. -/
theorem Reached.omits_later (h : Reached g rootName w tasks) {c : Contract}
    (hc : c ∈ w.contracts) {i : NodeId} (homits : c.Omits w.resolver i) {r : Resolver}
    (hnames : ∀ i name, w.resolver.nameOf i = some name → r.nameOf i = some name)
    (hsound : r.Sound) : c.Omits r i := by
  refine ⟨homits.1, fun name hname hi => ?_⟩
  obtain ⟨j, hj⟩ := h.accounts.named c hc name hname
  obtain rfl : j = i := hsound.injective j i name (hnames j name hj) hi
  exact homits.2 name hname hj

/-- What is declared before a fault for a node without a name omits that node. -/
def Clear (w : Walk) : Prop :=
  ∀ (before : List Event) (f : Fault) (after : List Event),
    w.events = before ++ .fault f :: after → f.kind = .unnamed →
      ∀ c, .declare c ∈ before → c.Omits w.resolver f.node

/-- What was declared before faults that fit omits the nodes of these and of older ones. -/
theorem Reached.clear_of_notes (h : Reached g rootName w tasks) (hnotes : Notes w w')
    (hsound : w'.resolver.Sound) (hclear : w.Clear) : w'.Clear := by
  intro before f after hsplit hkind c hc
  obtain ⟨fs, hevents, hfits⟩ := hnotes.events
  -- the contract is an old one in any case; the fault is new, or old as well
  have hc' : .declare c ∈ w.events := by
    have hmem : .declare c ∈ w'.events := hsplit ▸ List.mem_append_left _ hc
    rw [hevents, List.mem_append] at hmem
    exact hmem.resolve_right (by simp)
  have homits : c.Omits w.resolver f.node := by
    by_cases hf : f ∈ fs
    · exact h.omits_of_unnamed (mem_contracts_iff_mem_events.2 hc') (hfits f hf hkind)
    · have hnew : Event.fault f ∉ fs.map Event.fault := by simpa using hf
      rw [hevents, List.append_eq_append_iff] at hsplit
      rcases hsplit with ⟨more, -, hfs⟩ | ⟨_ | ⟨e, more⟩, hw, hfs⟩
      · exact absurd (hfs ▸ by simp) hnew
      · rw [List.nil_append] at hfs
        exact absurd (hfs ▸ List.mem_cons_self) hnew
      · obtain ⟨rfl, -⟩ := List.cons.inj hfs
        exact hclear before f more hw hkind c hc
  exact h.omits_later (mem_contracts_iff_mem_events.2 hc') homits hnotes.names hsound

/-- **What is declared before a fault omits its node**, then and forever. -/
theorem Reached.clear_before (hvalid : g.validate = .ok ()) (h : Reached g rootName w tasks) :
    w.Clear := by
  refine h.induct_visit (P := fun w _ => w.Clear) (by simp [Clear]) ?_
  intro w task rest w' more hreached ih hvisit
  have hpending : w.resolver.pending = [] := (hreached.explained hvalid).1.pending
  have hnext : Reached g rootName w' (more ++ rest) := hreached.tail (.visit hvisit)
  obtain ⟨w₁, hnotes, rfl | ⟨c₀, rfl⟩⟩ := visit_notes hvalid hpending hvisit
  · exact hreached.clear_of_notes hnotes hnext.sound ih
  · -- a declaration comes after all faults of its visit
    have hclear := hreached.clear_of_notes hnotes hnext.sound ih
    intro before f after hsplit hkind c hc
    refine hclear before f after.dropLast ?_ hkind c hc
    have hlast := congrArg List.dropLast hsplit
    cases after with
    | nil =>
      have hend := congrArg List.getLast? hsplit
      simp [declare] at hend
    | cons e after => simpa [declare, List.dropLast_append_cons] using hlast

/-! ### After the fault -/

/-- A name that a visit gives is one that a task of it offers, or that of the visit itself. -/
theorem Visits.exists_offer {task : Task} (h : Visits g w task w' tasks) {i : NodeId}
    {name : String} (hnone : w.resolver.nameOf i = none)
    (hname : w'.resolver.nameOf i = some name) :
    ∃ t ∈ task :: tasks, ∃ c, t.Offers g w.resolver i c := by
  cases h with
  | again _ => rw [hnone] at hname; cases hname
  | pass _ _ _ _ =>
    have hsame : w.resolver.nameOf i = some name := hname
    rw [hnone] at hsame; cases hsame
  | fail _ _ _ =>
    rw [resolver_report] at hname
    have hsame : w.resolver.nameOf i = some name := hname
    rw [hnone] at hsame; cases hsame
  | @declare node n r w₁ body _ _ hnode hdeclares hok hbuilt =>
    have hself := dereference_of_declares hnode hdeclares
    have hgrows := (Resolver.resolve_grows hok).2
    rcases hbuilt.part.fills.grows.old_or_allowed hname with hold | ⟨-, c, t, ht, hoffers, -⟩
    · rcases hgrows.old_or_allowed hold with holder | ⟨-, c, rfl, hc⟩
      · rw [hnone] at holder; cases holder
      · refine ⟨task, List.mem_cons_self, c, task.hint, ?_, hc⟩
        rw [hself]
        exact .here
    · obtain ⟨hint, hlead, hc⟩ := hoffers
      exact ⟨t, List.mem_cons_of_mem _ ht, c, hint, hlead.of_grows hgrows, hc⟩

theorem Reached.exists_naming (h : Reached g rootName w tasks) {i : NodeId} {name : String}
    (hname : w.resolver.nameOf i = some name) :
    ∃ w₁ task rest w₂ more, Reached g rootName w₁ (task :: rest) ∧
      w₁.visit g task = some (w₂, more) ∧ w₁.resolver.nameOf i = none ∧
      w₂.resolver.nameOf i = some name := by
  revert hname
  refine h.induct_visit (P := fun w _ => w.resolver.nameOf i = some name → ∃ w₁ task rest w₂ more,
    Reached g rootName w₁ (task :: rest) ∧ w₁.visit g task = some (w₂, more) ∧
      w₁.resolver.nameOf i = none ∧ w₂.resolver.nameOf i = some name) ?_ ?_
  · simp [Resolver.nameOf]
  intro w task rest w' more hreached ih hvisit hname
  cases hbefore : w.resolver.nameOf i with
  | none => exact ⟨w, task, rest, w', more, hreached, hvisit, hbefore, hname⟩
  | some name' =>
    have hkept := (visit_visits hvisit).grows.nameOf hbefore
    obtain rfl := Option.some.inj (hkept.symm.trans hname)
    exact ih hbefore

/-- For a node that has a name no fault is noted that says it has none. -/
theorem Reached.mem_faults_of_named (hvalid : g.validate = .ok ()) (h : Reached g rootName w tasks)
    {tasks' : List Task} (hsteps : ReflTransGen (Step g) (w, tasks) (w', tasks')) {f : Fault}
    {name : String} (hkind : f.kind = .unnamed) (hname : w.resolver.nameOf f.node = some name)
    (hf : f ∈ w'.faults) : f ∈ w.faults := by
  -- steps are between pairs, so the induction is on a pair; the node keeps its name on the way
  have hP : ∀ s, ReflTransGen (Step g) (w, tasks) s →
      s.1.resolver.nameOf f.node = some name ∧ (f ∈ s.1.faults → f ∈ w.faults) := by
    intro s hs
    induction hs with
    | refl => exact ⟨hname, id⟩
    | tail hto hstep ih =>
      cases hstep with
      | @visit w₁ w₂ task more rest hvisit =>
        have hreached : Reached g rootName w₁ (task :: rest) := ReflTransGen.trans h hto
        have hpending := (hreached.explained hvalid).1.pending
        refine ⟨(visit_visits hvisit).grows.nameOf ih.1, fun hf => ih.2 ?_⟩
        obtain ⟨w₃, hnotes, hend⟩ := visit_notes hvalid hpending hvisit
        have hf₃ : f ∈ w₃.faults := by
          rcases hend with rfl | ⟨c, rfl⟩
          · exact hf
          · rwa [faults_declare] at hf
        obtain ⟨fs, hevents, hfits⟩ := hnotes.events
        rw [mem_faults_iff_mem_events, hevents, List.mem_append] at hf₃
        refine mem_faults_iff_mem_events.2 (hf₃.resolve_right fun hnew => ?_)
        have hnone := hfits f (by simpa using hnew) hkind
        rw [ih.1] at hnone
        cases hnone
  exact (hP (w', tasks') hsteps).2 hf

/-- A visit gives the node of a fault a name, no sooner than the fault is noted, at a place that
leads to the node under a hint with an identifier. -/
def NamedLate (g : Graph) (rootName : Option String) (f : Fault) : Prop :=
  ∃ w task rest w' more, Reached g rootName w (task :: rest) ∧ w.visit g task = some (w', more) ∧
    w.resolver.nameOf f.node = none ∧ (w'.resolver.nameOf f.node).isSome = true ∧ f ∈ w'.faults ∧
    ∃ t ∈ task :: more, ∃ hint name,
      Resolver.Leads g w.resolver (g.dereference t.node) t.hint f.node (some hint) ∧
      Identifier.typeName? hint = some name

/-- **A node with a fault that has a name in the end was named late.** -/
theorem Reached.named_late (hvalid : g.validate = .ok ()) (h : Reached g rootName w []) {f : Fault}
    {name : String} (hf : f ∈ w.faults) (hkind : f.kind = .unnamed)
    (hname : w.resolver.nameOf f.node = some name) : NamedLate g rootName f := by
  obtain ⟨w₁, task, rest, w₂, more, hreached, hvisit, hbefore, hafter⟩ := h.exists_naming hname
  obtain ⟨t, ht, c, hint, hlead, hc⟩ := (visit_visits hvisit).exists_offer hbefore hafter
  have hnext : Reached g rootName w₂ (more ++ rest) := hreached.tail (.visit hvisit)
  have hnoted : f ∈ w₂.faults :=
    hnext.mem_faults_of_named hvalid (hnext.steps_to_end h) hkind hafter hf
  -- what the node declares gives no identifier, so the candidate comes from the hint
  obtain ⟨node, hnode, htrue⟩ := (h.explained hvalid).1.isTrue f hf
  simp only [hkind] at htrue
  rw [Resolver.candidate?, hnode, Option.bind_some] at hc
  obtain ⟨text, htext, htypeName⟩ := List.exists_of_findSome?_eq_some hc
  rcases List.mem_append.1 htext with hdeclared | hhint
  · rw [htrue.2 text (List.mem_append_left _ hdeclared)] at htypeName
    cases htypeName
  · rw [Option.mem_toList] at hhint
    subst hhint
    exact ⟨w₁, task, rest, w₂, more, hreached, hvisit, hbefore, by simp [hafter], hnoted, t, ht,
      text, c, hlead, htypeName⟩

end Walk

/-! ### Files -/

/-- No contract of a plan has to do with a node. -/
def Plan.LeavesOut (p : Plan) (r : Resolver) (id : NodeId) : Prop :=
  ∀ c ∈ p.contracts, c.Omits r id

theorem Walk.Reached.leavesOut_iff {g : Graph} {rootName : Option String} {w : Walk}
    {tasks : List Task} (h : Reached g rootName w tasks) (id : NodeId) :
    (∀ c ∈ w.contracts, c.Omits w.resolver id) ↔ w.resolver.nameOf id = none := by
  refine ⟨fun homits => ?_, fun hnone c hc => h.omits_of_unnamed hc hnone⟩
  by_contra hname
  obtain ⟨name, hname⟩ := Option.ne_none_iff_exists'.1 hname
  rcases h.accounts.used id name hname with hmem | ⟨c, hc, hmentioned⟩
  · obtain ⟨c, hc, rfl⟩ := List.mem_map.1 hmem
    exact (homits c hc).1 rfl
  · exact (homits c hc).2 name hmentioned hname

open Walk in
/-- **When a node with a fault is left out of a file.** The contracts of the file are those of its
plan. What is declared before a fault for a node without a name omits that node. The node is left
out of all contracts just if it has no name when the walk ends; if it has one, a visit gave it, no
sooner than the fault was noted, at a place whose hint has an identifier. -/
theorem left_out_iff_unnamed {ε : Type} (render : Renderer ε) (s : Settings) (g : Graph)
    (file : GeneratedFile) (hvalid : g.validate = .ok ()) (h : generate render s g = .ok file) :
    ∃ (p : Plan) (w : Walk), Plan.ofGraph g s.rootTypeName = some p ∧
      Walk.run g (visitBound g) {} [⟨g.root, s.rootTypeName, true⟩] = some w ∧
      p.events = w.events ∧ file.faults = p.faults ∧
      (∀ name, (∃ a ∈ file.artifacts, a.kind.category = .contract ∧ a.typeName = name) ↔
        ∃ c ∈ p.contracts, c.name = name) ∧
      ∀ f ∈ file.faults, f.kind = .unnamed →
        (∀ before after : List Event, p.events = before ++ .fault f :: after →
          ∀ c, .declare c ∈ before → c.Omits w.resolver f.node) ∧
        (p.LeavesOut w.resolver f.node ↔ w.resolver.nameOf f.node = none) ∧
        (¬ p.LeavesOut w.resolver f.node → NamedLate g s.rootTypeName f) := by
  obtain ⟨p, hp, hartifacts, hfaults⟩ := generate_eq_ok h
  have hplan := hp
  simp only [Plan.ofGraph, Option.bind_eq_bind, Option.bind_eq_some_iff] at hplan
  obtain ⟨w, hrun, hplan⟩ := hplan
  obtain rfl := by simpa using hplan
  have hw : Reached g s.rootTypeName w [] := run_steps hrun
  refine ⟨_, w, hp, hrun, rfl, hfaults, fun name => exists_contract_iff hartifacts, ?_⟩
  intro f hf hkind
  have hf' : f ∈ w.faults := by
    rw [hfaults] at hf
    exact hf
  have hiff := hw.leavesOut_iff f.node
  refine ⟨fun before after hsplit => hw.clear_before hvalid before f after hsplit hkind, hiff, ?_⟩
  intro hnot
  obtain ⟨name, hname⟩ := Option.ne_none_iff_exists'.1 fun hnone => hnot (hiff.2 hnone)
  exact hw.named_late hvalid hf' hkind hname

/-- A parcel with properties of two types without a name. One of the types belongs to a second
property, which has a name for it. -/
def parcel : Graph where
  root := 0
  nodes := #[
    { Node.ofKind (.object ⟨[⟨"?", 1, true, false, false, none, []⟩,
        ⟨"!", 2, true, false, false, none, []⟩, ⟨"air", 1, true, false, false, none, []⟩],
        none, false, none⟩) with nameHint := some "Parcel" },
    Node.ofKind (.object ⟨[], none, false, none⟩), Node.ofKind (.object ⟨[], none, false, none⟩)]

/-- Of the two types with a fault one is left out of parcels, and the other was named late. -/
theorem left_out_iff_unnamed_parcel :
    ∃ file p w, parcel.validate = .ok () ∧ generate blankRenderer {} parcel = .ok file ∧
      Plan.ofGraph parcel none = some p ∧
      Walk.run parcel (Walk.visitBound parcel) {} [⟨0, none, true⟩] = some w ∧
      file.faults = [⟨1, some "?", .unnamed⟩, ⟨2, some "!", .unnamed⟩] ∧
      p.LeavesOut w.resolver 2 ∧ ¬ p.LeavesOut w.resolver 1 ∧
      Walk.NamedLate parcel none ⟨1, some "?", .unnamed⟩ := by
  have hvalid : parcel.validate = .ok () := by decide +kernel
  obtain ⟨file, hfile⟩ : ∃ file, generate blankRenderer {} parcel = .ok file :=
    exists_eq_ok (by decide +kernel)
  obtain ⟨p, w, hp, hrun, -, hfaults, -, hall⟩ :=
    left_out_iff_unnamed blankRenderer {} parcel file hvalid hfile
  have hplan : (Plan.ofGraph parcel none).map Plan.faults =
      some [⟨1, some "?", .unnamed⟩, ⟨2, some "!", .unnamed⟩] := by decide +kernel
  have hnames : (Walk.run parcel (Walk.visitBound parcel) {} [⟨0, none, true⟩]).map
      (fun w => (w.resolver.nameOf 1, w.resolver.nameOf 2)) = some (some "Air", none) := by
    decide +kernel
  rw [hp, Option.map_some, Option.some.injEq] at hplan
  obtain ⟨hair, hnone⟩ : w.resolver.nameOf 1 = some "Air" ∧ w.resolver.nameOf 2 = none := by
    have hrun' : Walk.run parcel (Walk.visitBound parcel) {} [⟨0, none, true⟩] = some w := hrun
    simpa [hrun'] using hnames
  have hboth : file.faults = [⟨1, some "?", .unnamed⟩, ⟨2, some "!", .unnamed⟩] :=
    hfaults.trans hplan
  obtain ⟨-, hfirst, hlate⟩ := hall ⟨1, some "?", .unnamed⟩ (by simp [hboth]) rfl
  obtain ⟨-, hsecond, -⟩ := hall ⟨2, some "!", .unnamed⟩ (by simp [hboth]) rfl
  have hnot : ¬ p.LeavesOut w.resolver 1 := by simp [hfirst, hair]
  exact ⟨file, p, w, hvalid, hfile, hp, hrun, hboth, hsecond.2 hnone, hnot, hlate hnot⟩

/-- A node with a fault may be declared in the file, and mentioned there. -/
theorem parcel_fault_declared :
    ∃ file p, parcel.validate = .ok () ∧ generate blankRenderer {} parcel = .ok file ∧
      Plan.ofGraph parcel none = some p ∧ ⟨1, some "?", .unnamed⟩ ∈ file.faults ∧
      ∃ c ∈ p.contracts, c.node = 1 ∧
        (∃ a ∈ file.artifacts, a.kind.category = .contract ∧ a.typeName = c.name) ∧
        ∃ c' ∈ p.contracts, c.name ∈ c'.mentions := by
  obtain ⟨file, hfile⟩ : ∃ file, generate blankRenderer {} parcel = .ok file :=
    exists_eq_ok (by decide +kernel)
  obtain ⟨p, hp, hartifacts, hfaults⟩ := generate_eq_ok hfile
  have hplan : (Plan.ofGraph parcel none).map (fun p =>
      (p.faults, p.contracts.map fun c => (c.node, c.name, c.mentions))) =
      some ([⟨1, some "?", .unnamed⟩, ⟨2, some "!", .unnamed⟩],
        [(0, "Parcel", ["Air"]), (1, "Air", [])]) := by
    decide +kernel
  obtain ⟨p', hp', hplan⟩ := Option.map_eq_some_iff.1 hplan
  obtain rfl := Option.some.inj (hp.symm.trans hp')
  obtain ⟨hnoted, hcontracts⟩ := Prod.mk.inj hplan
  obtain ⟨air, hair, hparts⟩ : ∃ c ∈ p.contracts, (c.node, c.name, c.mentions) = (1, "Air", []) :=
    List.mem_map.1 (by simp [hcontracts])
  obtain ⟨owner, howner, hparts'⟩ :
      ∃ c ∈ p.contracts, (c.node, c.name, c.mentions) = (0, "Parcel", ["Air"]) :=
    List.mem_map.1 (by simp [hcontracts])
  obtain ⟨hnode, hname, -⟩ := by simpa using hparts
  obtain ⟨-, -, hmentions⟩ := by simpa using hparts'
  refine ⟨file, p, by decide +kernel, hfile, hp, by simp [hfaults, hnoted], air, hair, hnode, ?_,
    owner, howner, by simp [hmentions, hname]⟩
  exact (exists_contract_iff hartifacts).2 ⟨air, hair, rfl⟩

end ContractGen
