import ContractGen.Proofs.Visits

/-!
# What a visit is made of

A visit is a row of actions of five kinds: a node is marked as visited, a node is named, a reference
is rendered, a need is recorded, or a union of nothing is reported (`Walk.Action`). After them at
most one contract is declared (`Walk.visit_acts`). What each of the actions keeps is kept by a
visit, so a statement about what happens within visits needs five small cases and no second look at
how contracts are built.
-/

namespace ContractGen

open Schema (Graph Node NodeId Kind)
open Contract (Member Subtype Hierarchy Case)
open Relation (ReflTransGen)

/-- A position is that of a node, or a node points at it. -/
def Schema.Graph.Mentions (g : Graph) (id : NodeId) : Prop :=
  ∃ i node, g.node? i = some node ∧ (id = i ∨ id ∈ node.kind.children)

namespace Walk

/-- One action of a visit. -/
inductive Action (g : Graph) (w : Walk) : Walk → Prop where
  /-- A node is marked as visited. -/
  | mark (id : NodeId) : Action g w (w.mark id)
  /-- A node is named, or a fault is noted. -/
  | name {id : NodeId} {hint out : Option String} {w' : Walk} : g.Mentions id →
      w.name? g id hint = (w', out) → Action g w w'
  /-- A reference is rendered, and faults are noted. -/
  | refer {id : NodeId} {hint : String} {type : Option TypeRef} {w' : Walk} : g.Mentions id →
      w.typeRef g id hint = some (w', type) → Action g w w'
  /-- What contracts need is recorded. -/
  | need (features : Features) :
      Action g w { w with resolver := { w.resolver with features := features } }
  /-- A union of nothing is reported. -/
  | empty {id : NodeId} {node : Node} (hint : Option String) : g.node? id = some node →
      node.kind = .union [] → Action g w (w.report ⟨id, hint, .emptyUnion⟩)

/-- A row of actions. -/
abbrev Acts (g : Graph) : Walk → Walk → Prop := ReflTransGen (Action g)

variable {g : Graph} {w w' : Walk} {tasks : List Task}

/-! ### Classes -/

theorem member_acts {p : Schema.Property} {m : Member} (hp : g.Mentions p.schema)
    (h : w.member g p = some (w', m, tasks)) : Acts g w w' := by
  simp only [member, Option.bind_eq_bind, Option.bind_eq_some_iff, Prod.exists] at h
  obtain ⟨w₁, type, htype, h⟩ := h
  obtain ⟨rfl, -, -⟩ := by simpa using h
  exact .tail (.single (.refer hp htype)) (.need _)

theorem members_acts {ps : List Schema.Property} {ms : List Member}
    (hps : ∀ p ∈ ps, g.Mentions p.schema) (h : w.members g ps = some (w', ms, tasks)) :
    Acts g w w' := by
  induction ps generalizing w w' ms tasks with
  | nil =>
    obtain ⟨rfl, -, -⟩ := by simpa [members] using h
    exact .refl
  | cons p ps ih =>
    simp only [members, Option.bind_eq_bind, Option.bind_eq_some_iff, Prod.exists] at h
    obtain ⟨w₁, m, ts, hfirst, w₂, ms', more, hrest, h⟩ := h
    obtain ⟨rfl, -, -⟩ := by simpa using h
    have hone : Acts g w w₁ := member_acts (hps p List.mem_cons_self) hfirst
    exact hone.trans (ih (fun q hq => hps q (List.mem_cons_of_mem _ hq)) hrest)

theorem base_acts {typeName : String} {base : Option NodeId} {name : Option String}
    (hbase : ∀ id, base = some id → g.Mentions id)
    (h : w.base g typeName base = (w', name, tasks)) : Acts g w w' := by
  cases base with
  | none =>
    obtain ⟨rfl, -, -⟩ := by simpa [Walk.base] using h
    exact .refl
  | some id =>
    cases hname : w.name? g id (some (typeName ++ "Base")) with
    | mk w₁ out =>
      have hone : Acts g w w₁ := .single (.name (hbase id rfl) hname)
      cases out with
      | some n =>
        obtain ⟨rfl, -, -⟩ := by simpa [Walk.base, hname] using h
        exact hone
      | none =>
        obtain ⟨rfl, -, -⟩ := by simpa [Walk.base, hname] using h
        exact hone

theorem subtypes_acts {mapping : List Schema.Mapping} {subs : List Subtype}
    (hmapping : ∀ m ∈ mapping, g.Mentions m.target)
    (h : w.subtypes g mapping = (w', subs, tasks)) : Acts g w w' := by
  induction mapping generalizing w w' subs tasks with
  | nil =>
    obtain ⟨rfl, -, -⟩ := by simpa [subtypes] using h
    exact .refl
  | cons m ms ih =>
    have hrest : ∀ m' ∈ ms, g.Mentions m'.target :=
      fun m' hm' => hmapping m' (List.mem_cons_of_mem _ hm')
    cases hname : w.name? g m.target (some m.value) with
    | mk w₁ out =>
      have hone : Acts g w w₁ := .single (.name (hmapping m List.mem_cons_self) hname)
      cases hsubs : w₁.subtypes g ms with
      | mk w₂ more =>
        have hmore : Acts g w₁ w₂ := ih hrest hsubs
        cases out with
        | some n =>
          obtain ⟨rfl, -, -⟩ := by simpa [subtypes, hname, hsubs] using h
          exact hone.trans hmore
        | none =>
          obtain rfl : w₂ = w' := by simpa [subtypes, hname, hsubs] using congrArg Prod.fst h
          exact hone.trans hmore

theorem hierarchy_acts {d : Option Schema.Discriminator} {hierarchy : Option Hierarchy}
    (hd : ∀ d', d = some d' → ∀ m ∈ d'.mapping, g.Mentions m.target)
    (h : w.hierarchy g d = (w', hierarchy, tasks)) : Acts g w w' := by
  cases d with
  | none =>
    obtain ⟨rfl, -, -⟩ := by simpa [Walk.hierarchy] using h
    exact .refl
  | some d =>
    obtain ⟨rfl, -, -⟩ := by simpa [Walk.hierarchy] using h
    exact .head (.need _) (subtypes_acts (hd d rfl) rfl)

theorem declareRecord_acts {id : NodeId} {node : Node} {shape : Schema.Shape} {name : String}
    (hnode : g.node? id = some node) (hkind : node.kind = .object shape)
    (h : w.declareRecord g id node shape name = some (w', tasks)) :
    ∃ w₁ c, Acts g w w₁ ∧ w' = w₁.declare c := by
  have hchild : ∀ child ∈ node.kind.children, g.Mentions child :=
    fun child hchild => ⟨id, node, hnode, .inr hchild⟩
  simp only [hkind, Kind.children, List.mem_append, Option.mem_toList] at hchild
  simp only [declareRecord, Option.bind_eq_bind, Option.bind_eq_some_iff, Prod.exists] at h
  obtain ⟨w₂, ms, memberTasks, hmembers, h⟩ := h
  cases hbase : w.base g name shape.base with
  | mk w₁ more =>
    cases hhierarchy : w₂.hierarchy g shape.discriminator with
    | mk w₃ more' =>
      simp only [hbase] at hmembers
      obtain ⟨rfl, -⟩ := by simpa [hbase, hhierarchy] using h
      have h₁ : Acts g w w₁ := base_acts (fun b hb => hchild b (.inl (.inl hb))) hbase
      have h₂ : Acts g w₁ w₂ := members_acts (fun p hp => hchild p.schema
        (.inl (.inr (List.mem_map_of_mem (List.mem_filter.1 hp).1)))) hmembers
      have h₃ : Acts g w₂ w₃ := hierarchy_acts (fun d hd m hm =>
        hchild m.target (.inr (by simpa [hd] using List.mem_map_of_mem hm))) hhierarchy
      exact ⟨w₃, _, (h₁.trans h₂).trans h₃, rfl⟩

/-! ### Unions -/

theorem cases_acts {typeName : String} {used : List String} {index : Nat} {variants : List NodeId}
    {cs : List Case} (hvariants : ∀ v ∈ variants, g.Mentions v)
    (h : Walk.cases g typeName w used index variants = some (w', cs, tasks)) : Acts g w w' := by
  induction variants generalizing w w' used index cs tasks with
  | nil =>
    obtain ⟨rfl, -, -⟩ := by simpa [Walk.cases] using h
    exact .refl
  | cons variant rest ih =>
    simp only [Walk.cases, Option.bind_eq_bind, Option.bind_eq_some_iff, Prod.exists] at h
    obtain ⟨w₁, type, htype, w₂, more, moreTasks, hrest, h⟩ := h
    obtain ⟨rfl, -, -⟩ := by simpa using h
    have hone : Action g w w₁ := .refer (hvariants variant List.mem_cons_self) htype
    exact .head hone (ih (fun v hv => hvariants v (List.mem_cons_of_mem _ hv)) hrest)

theorem declareUnion_acts {id : NodeId} {node : Node} {variants : List NodeId} {name : String}
    (hnode : g.node? id = some node) (hkind : node.kind = .union variants)
    (h : w.declareUnion g id node variants name = some (w', tasks)) :
    ∃ w₁ c, Acts g w w₁ ∧ w' = w₁.declare c := by
  simp only [declareUnion, Option.bind_eq_bind, Option.bind_eq_some_iff, Prod.exists] at h
  obtain ⟨w₁, cs, ts, hcases, h⟩ := h
  obtain ⟨rfl, -⟩ := by simpa using h
  have hvariants : ∀ v ∈ variants, g.Mentions v :=
    fun v hv => ⟨id, node, hnode, .inr (by simpa [hkind, Kind.children] using hv)⟩
  exact ⟨_, _, .tail (cases_acts hvariants hcases) (.need _), rfl⟩

/-! ### Visits -/

/-- Actions, and at most one declaration after them. -/
def Prepares (g : Graph) (w w' : Walk) : Prop :=
  ∃ w₁, Acts g w w₁ ∧ (w' = w₁ ∨ ∃ c, w' = w₁.declare c)

theorem declareNamed_acts {id : NodeId} {hint : Option String}
    {body : Walk → String → Option (Walk × List Task)} (hid : g.Mentions id)
    (hbody : ∀ w₁ name w' tasks, body w₁ name = some (w', tasks) →
      ∃ w₂ c, Acts g w₁ w₂ ∧ w' = w₂.declare c)
    (h : w.declareNamed g id hint body = some (w', tasks)) : Prepares g w w' := by
  unfold declareNamed at h
  split at h
  · rename_i w₁ name hname
    obtain ⟨w₂, c, hacts, rfl⟩ := hbody _ _ _ _ h
    exact ⟨w₂, .head (.name hid hname) hacts, .inr ⟨c, rfl⟩⟩
  · rename_i w₁ hname
    obtain ⟨rfl, -⟩ := by simpa using h
    exact ⟨w₁, .single (.name hid hname), .inl rfl⟩

theorem enter_acts {id : NodeId} {node : Node} {hint : Option String} {isRoot : Bool}
    (hnode : g.node? id = some node) (h : w.enter g id node hint isRoot = some (w', tasks)) :
    Prepares g w w' := by
  have hid : g.Mentions id := ⟨id, node, hnode, .inl rfl⟩
  have hidle : Prepares g w w := ⟨w, .refl, .inl rfl⟩
  cases hkind : node.kind with
  | enumeration values =>
    refine declareNamed_acts hid ?_ (by simpa only [enter, hkind] using h)
    intro w₁ name w' tasks hbody
    obtain ⟨rfl, -⟩ := by simpa using hbody
    exact ⟨w₁, _, .refl, rfl⟩
  | object shape =>
    refine declareNamed_acts hid ?_ (by simpa only [enter, hkind] using h)
    exact fun w₁ name w' tasks hbody => declareRecord_acts hnode hkind hbody
  | array items =>
    obtain ⟨rfl, -⟩ := by simpa [enter, hkind] using h
    exact hidle
  | primitive type format =>
    obtain ⟨rfl, -⟩ := by simpa [enter, hkind] using h
    exact hidle
  | reference target =>
    obtain ⟨rfl, -⟩ := by simpa [enter, hkind] using h
    exact hidle
  | union variants =>
    simp only [enter, hkind] at h
    split_ifs at h with hempty hnamed
    · obtain ⟨rfl, -⟩ := by simpa using h
      obtain rfl := List.isEmpty_iff.1 hempty
      exact ⟨_, .single (.empty hint hnode hkind), .inl rfl⟩
    · refine declareNamed_acts hid ?_ h
      exact fun w₁ name w' tasks hbody => declareUnion_acts hnode hkind hbody
    · obtain ⟨rfl, -⟩ := by simpa using h
      exact hidle

/-- **The actions of a visit.** -/
theorem visit_acts {task : Task} (h : w.visit g task = some (w', tasks)) : Prepares g w w' := by
  by_cases hseen : g.dereference task.node ∈ w.visited
  · obtain ⟨rfl, -⟩ := by simpa [visit, hseen] using h
    exact ⟨w, .refl, .inl rfl⟩
  · cases hnode : g.node? (g.dereference task.node) with
    | none =>
      obtain ⟨rfl, -⟩ := by simpa [visit, hseen, hnode] using h
      exact ⟨_, .single (.mark (g.dereference task.node)), .inl rfl⟩
    | some node =>
      obtain ⟨w₁, hacts, hend⟩ := enter_acts hnode (visit_of_new hseen hnode ▸ h)
      exact ⟨w₁, .head (.mark (g.dereference task.node)) hacts, hend⟩

end Walk

end ContractGen
