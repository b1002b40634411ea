import ContractGen.Proofs.Visits

/-!
# How contracts are made

What a contract declares is made of its node, part by part, in the states that the walk comes to
meanwhile. `Contract.Made` keeps for each kind of contract which parts these are, and
`Walk.Reached.made` says that all contracts of a walk were made so, in sound graphs and in others.
It is what statements about the insides of contracts start from.

Members and cases are made one by one. A member is known from its property but for the type
(`Walk.members_eq`), and a case is known from its variant and the names of the cases before it
(`Walk.cases_spec`).
-/

namespace ContractGen

open Schema (Graph Node NodeId Kind)
open Contract (Member Hierarchy Case Enumeration)
open Identifier (IsChosen IsFirstFree)

/-- How the body of a contract is made, for the node at `id` and under its name. -/
inductive Contract.Made (g : Graph) (id : NodeId) (node : Node) (name : String) :
    Contract.Body → Prop where
  /-- A class has the base, the members that are shown and the subtypes of its object. -/
  | record {shape : Schema.Shape} {w w₁ w₂ w₃ : Walk} {base : Option String}
      {members : List Member} {hierarchy : Option Hierarchy} {ts₁ ts₂ ts₃ : List Task} :
      node.kind = .object shape → w.base g name shape.base = (w₁, base, ts₁) →
      w₁.members g (shape.properties.filter fun p => Walk.inheritedProperty g id != some p.name) =
        some (w₂, members, ts₂) →
      w₂.hierarchy g shape.discriminator = (w₃, hierarchy, ts₃) →
      Made g id node name (.record {
        base
        isAbstract := shape.isAbstract
        doc := docLines node.summary
        hierarchy
        members := distinctMembers name members })
  /-- An enumeration has the values of its node. -/
  | enumeration {values : List Json.Value} : node.kind = .enumeration values →
      Made g id node name (.enumeration (Enumeration.ofValues name (docLines node.summary) values))
  /-- A union has a case for each of its variants. -/
  | union {variants : List NodeId} {w w' : Walk} {cases : List Case} {doc : List String}
      {ts : List Task} : node.kind = .union variants →
      Walk.cases g name w [] 0 variants = some (w', cases, ts) →
      Made g id node name (.union ⟨doc, cases⟩)

namespace Walk

variable {g : Graph} {w w' : Walk} {id : NodeId} {node : Node} {tasks : List Task}

/-- Every contract is old, or is that of the node and was made for it. -/
def Makes (g : Graph) (id : NodeId) (node : Node) (w w' : Walk) : Prop :=
  ∀ c ∈ w'.contracts, c ∈ w.contracts ∨ c.node = id ∧ Contract.Made g id node c.name c.body

theorem Makes.declare {w₁ : Walk} {name : String} {body : Contract.Body}
    (hcontracts : w₁.contracts = w.contracts) (h : Contract.Made g id node name body) :
    Makes g id node w (w₁.declare ⟨id, name, body⟩) := by
  intro c hc
  rw [contracts_declare, hcontracts, List.mem_append, List.mem_singleton] at hc
  rcases hc with hold | rfl
  · exact .inl hold
  · exact .inr ⟨rfl, h⟩

theorem declareRecord_makes {shape : Schema.Shape} {name : String}
    (hkind : node.kind = .object shape)
    (h : w.declareRecord g id node shape name = some (w', tasks)) : Makes g id node w w' := by
  simp only [declareRecord, Option.bind_eq_bind, Option.bind_eq_some_iff, Prod.exists] at h
  obtain ⟨w₂, members, ts₂, hmembers, h⟩ := h
  cases hbase : w.base g name shape.base with
  | mk w₁ more =>
    cases hhierarchy : w₂.hierarchy g shape.discriminator with
    | mk w₃ more' =>
      simp only [hbase] at hmembers
      obtain ⟨rfl, rfl⟩ := by simpa [hbase, hhierarchy] using h
      refine .declare ?_ (.record hkind hbase hmembers hhierarchy)
      have h₁ := (base_part hbase).1.fills.contracts
      have h₂ := (members_part hmembers).1.fills.contracts
      have h₃ := (hierarchy_part hhierarchy).1.fills.contracts
      rw [h₃, h₂, h₁]

theorem declareUnion_makes {variants : List NodeId} {name : String}
    (hkind : node.kind = .union variants)
    (h : w.declareUnion g id node variants name = some (w', tasks)) : Makes g id node w w' := by
  simp only [declareUnion, Option.bind_eq_bind, Option.bind_eq_some_iff, Prod.exists] at h
  obtain ⟨w₁, cases, ts, hcases, h⟩ := h
  obtain ⟨rfl, rfl⟩ := by simpa using h
  exact .declare (cases_part hcases).1.fills.contracts (.union hkind hcases)

theorem declareNamed_makes {hint : Option String}
    {body : Walk → String → Option (Walk × List Task)}
    (hbody : ∀ w₁ name w' tasks, body w₁ name = some (w', tasks) → Makes g id node w₁ w')
    (h : w.declareNamed g id hint body = some (w', tasks)) : Makes g id node w w' := by
  unfold declareNamed at h
  split at h
  · rename_i w₁ name hname
    have hmakes := hbody _ _ _ _ h
    obtain ⟨_, r, -, -, rfl⟩ | ⟨_, _, ⟨⟩, _⟩ := name?_cases hname
    exact hmakes
  · rename_i w₁ hname
    obtain ⟨rfl, rfl⟩ := by simpa using h
    obtain ⟨_, _, _, ⟨⟩, _⟩ | ⟨fault, -, -, rfl⟩ := name?_cases hname
    intro c hc
    exact .inl (by rwa [contracts_report] at hc)

theorem enter_makes {hint : Option String} {isRoot : Bool}
    (h : w.enter g id node hint isRoot = some (w', tasks)) : Makes g id node w w' := by
  have hidle : Makes g id node w w := fun c hc => .inl hc
  cases hkind : node.kind with
  | enumeration values =>
    refine declareNamed_makes ?_ (by simpa only [enter, hkind] using h)
    intro w₁ name w' tasks hbody
    obtain ⟨rfl, rfl⟩ := by simpa using hbody
    exact .declare rfl (.enumeration hkind)
  | object shape =>
    refine declareNamed_makes ?_ (by simpa only [enter, hkind] using h)
    exact fun w₁ name w' tasks hbody => declareRecord_makes hkind hbody
  | array items =>
    obtain ⟨rfl, rfl⟩ := by simpa [enter, hkind] using h
    exact hidle
  | primitive type format =>
    obtain ⟨rfl, rfl⟩ := by simpa [enter, hkind] using h
    exact hidle
  | reference target =>
    obtain ⟨rfl, rfl⟩ := by simpa [enter, hkind] using h
    exact hidle
  | union variants =>
    simp only [enter, hkind] at h
    split_ifs at h with hempty hnamed
    · obtain ⟨rfl, rfl⟩ := by simpa using h
      exact fun c hc => .inl (by rwa [contracts_report] at hc)
    · refine declareNamed_makes ?_ h
      exact fun w₁ name w' tasks hbody => declareUnion_makes hkind hbody
    · obtain ⟨rfl, rfl⟩ := by simpa using h
      exact hidle

/-- **How the contracts of a walk are made.** -/
theorem Reached.made {rootName : Option String} (h : Reached g rootName w tasks) :
    ∀ c ∈ w.contracts, ∃ node, g.node? c.node = some node ∧
      Contract.Made g c.node node c.name c.body := by
  refine h.induct_visit (P := fun w _ => ∀ c ∈ w.contracts, ∃ node, g.node? c.node = some node ∧
    Contract.Made g c.node node c.name c.body) (by simp [contracts]) ?_
  intro w task rest w' more _ ih hvisit c hc
  by_cases hseen : g.dereference task.node ∈ w.visited
  · obtain ⟨rfl, -⟩ := by simpa [visit, hseen] using hvisit
    exact ih c hc
  · cases hnode : g.node? (g.dereference task.node) with
    | none =>
      obtain ⟨rfl, -⟩ := by simpa [visit, hseen, hnode] using hvisit
      exact ih c hc
    | some node =>
      have hmakes := enter_makes (visit_of_new hseen hnode ▸ hvisit)
      rcases hmakes c hc with hold | ⟨hself, hmade⟩
      · exact ih c hold
      · exact ⟨node, hself ▸ hnode, hself ▸ hmade⟩

end Walk

/-! ### Members -/

/-- The member of a property, with a type. -/
def Walk.memberOf (g : Graph) (p : Schema.Property) (type : TypeRef) : Member where
  rawName := p.name
  name := Identifier.memberName p.name p.explicitName
  type := type
  required := p.required
  nullable := p.nullable
  doc := docLines (propertySummary p (g.node? (g.dereference p.schema)))
  isDate := ((g.node? (g.dereference p.schema)).map fun n => isDateNode n.kind).getD false

/-- There is one member for each property, in order, and all but its type is known from that. -/
theorem Walk.members_eq {g : Graph} {w w' : Walk} {ps : List Schema.Property}
    {members : List Member} {tasks : List Task}
    (h : w.members g ps = some (w', members, tasks)) :
    List.Forall₂ (fun p m => ∃ type, m = memberOf g p type) ps members := by
  induction ps generalizing w w' members tasks with
  | nil =>
    obtain ⟨rfl, rfl, rfl⟩ := by simpa [Walk.members] using h
    exact .nil
  | cons p ps ih =>
    simp only [Walk.members, Option.bind_eq_bind, Option.bind_eq_some_iff, Prod.exists] at h
    obtain ⟨w₁, m, ts, hfirst, w₂, more, moreTasks, hrest, h⟩ := h
    obtain ⟨rfl, rfl, rfl⟩ := by simpa using h
    refine .cons ?_ (ih hrest)
    simp only [Walk.member, Option.bind_eq_bind, Option.bind_eq_some_iff, Prod.exists] at hfirst
    obtain ⟨w₀, type, -, hfirst⟩ := hfirst
    obtain ⟨-, rfl, -⟩ := by simpa using hfirst
    exact ⟨type.getD .unknown, rfl⟩

theorem Walk.map_members {α : Type} {f : Member → α} {f' : Schema.Property → α} {g : Graph}
    {w w' : Walk} {ps : List Schema.Property} {members : List Member} {tasks : List Task}
    (hf : ∀ p type, f (memberOf g p type) = f' p)
    (h : w.members g ps = some (w', members, tasks)) : members.map f = ps.map f' := by
  have hmembers := Walk.members_eq h
  clear h
  induction hmembers with
  | nil => rfl
  | cons hm _ ih =>
    obtain ⟨type, rfl⟩ := hm
    rw [List.map_cons, List.map_cons, hf, ih]

/-! ### Cases -/

namespace Walk

variable {g : Graph} {w w' : Walk} {tasks : List Task}

/-- The name of a case that no other case has before it. -/
def plainCase (g : Graph) (typeName : String) (variant : NodeId) (index : Nat) : String :=
  Identifier.memberName (caseHint g typeName variant index) none

/-- `type` is what the type of `id` settles on, in some state of the resolver. -/
def TypeOf (g : Graph) (id : NodeId) (hint : String) (type : TypeRef) : Prop :=
  ∃ r r' out, Resolver.typeRef r g id (some hint) = some (r', out) ∧ Resolver.settled out = type

theorem typeOf_of_typeRef {id : NodeId} {hint : String} {type : Option TypeRef}
    (h : w.typeRef g id hint = some (w', type)) : TypeOf g id hint (type.getD .unknown) := by
  simp only [typeRef, Option.bind_eq_bind, Option.bind_eq_some_iff, Prod.exists] at h
  obtain ⟨r', out, hout, h⟩ := h
  refine ⟨w.resolver, r', out, hout, ?_⟩
  cases out with
  | ok t =>
    obtain ⟨-, rfl⟩ := by simpa using h
    rfl
  | error fault =>
    obtain ⟨-, rfl⟩ := by simpa using h
    rfl

/-- What is found at each position: the type of the variant, and its plain name or the smallest
number after that, such that no case before has the name. -/
theorem cases_spec {typeName : String} {used : List String} {index : Nat} {variants : List NodeId}
    {cs : List Case} (h : Walk.cases g typeName w used index variants = some (w', cs, tasks))
    {i : Nat} {variant : NodeId} (hvariant : variants[i]? = some variant) :
    ∃ k, cs[i]? = some k ∧
      TypeOf g variant (caseHint g typeName variant (index + i)) k.type ∧
      IsFirstFree (plainCase g typeName variant (index + i))
        ((cs.take i).map Case.name ++ used) k.name := by
  induction variants generalizing w w' used index cs tasks i with
  | nil => simp at hvariant
  | cons first rest ih =>
    simp only [Walk.cases, Option.bind_eq_bind, Option.bind_eq_some_iff, Prod.exists] at h
    obtain ⟨w₁, type, htype, w₂, more, moreTasks, hrest, h⟩ := h
    obtain ⟨rfl, rfl, rfl⟩ := by simpa using h
    cases i with
    | zero =>
      obtain rfl : first = variant := by simpa using hvariant
      exact ⟨_, rfl, typeOf_of_typeRef htype, Identifier.freeName_isFirstFree _ used⟩
    | succ i =>
      obtain ⟨k, hk, hkind, hname⟩ := ih hrest (by simpa using hvariant)
      rw [Nat.add_right_comm, Nat.add_assoc] at hkind hname
      -- the first name has moved from those before to those used
      have hmoved : ∀ name x, x ∈ (more.take i).map Case.name ++ name :: used ↔
          x ∈ name :: ((more.take i).map Case.name ++ used) :=
        fun name x => List.perm_middle.mem_iff
      exact ⟨k, by simpa using hk, hkind, IsChosen.congr (hmoved _) (hmoved _) hname⟩

end Walk

/-! ### Plans -/

theorem Plan.made {g : Graph} {rootName : Option String} {p : Plan}
    (h : Plan.ofGraph g rootName = some p) :
    ∀ c ∈ p.contracts, ∃ node, g.node? c.node = some node ∧
      Contract.Made g c.node node c.name c.body := by
  obtain ⟨w, hw, hcontracts, -, -⟩ := Plan.reached_of_ofGraph h
  rw [hcontracts]
  exact hw.made

end ContractGen
