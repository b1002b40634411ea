import ContractGen.Proofs.Bodies

/-!
# Where comments come from

Contracts show the descriptions of a graph in comments. All lines of these are lines of some
description (`Plan.describes_docs`). Classes, their members and enumerations are known from
how contracts are made. The comment of a union depends on more than its node, since a property that
declares the union in place takes it over, so unions are followed along the walk
(`Walk.Reached.union_docs`).
-/

namespace ContractGen

open Schema (Graph Node NodeId)

/-- The descriptions in a graph, of nodes and of properties. -/
def Schema.Graph.descriptions (g : Graph) : List String :=
  g.nodes.toList.flatMap fun node =>
    node.summary.toList ++
      node.shape?.toList.flatMap fun shape => shape.properties.filterMap Schema.Property.summary

/-- The comments of a contract: the margin of each, and its lines. -/
def Contract.summaries (c : Contract) : List (String × List String) :=
  match c.body with
  | .record r => ("", r.doc) :: r.members.map fun m => ("    ", m.doc)
  | .enumeration e => [("", e.doc)]
  | .union u => [("", u.doc)]

/-- The lines of descriptions that a contract shows. -/
def Contract.docs (c : Contract) : List String := c.summaries.flatMap Prod.snd

/-! ### Descriptions -/

namespace Schema.Graph

variable {g : Graph} {id : NodeId} {node : Node} {line : String}

/-- Whether a line is one of the lines of a description. -/
def Describes (g : Graph) (line : String) : Prop :=
  ∃ text ∈ g.descriptions, line ∈ docLines (some text)

theorem describes_of_summary {o : Option String}
    (ho : ∀ text, o = some text → text ∈ g.descriptions) (h : line ∈ docLines o) :
    g.Describes line := by
  cases o with
  | none => simp [docLines] at h
  | some text => exact ⟨text, ho text rfl, h⟩

theorem mem_descriptions_of_node {text : String} (hnode : g.node? id = some node)
    (h : node.summary = some text) : text ∈ g.descriptions := by
  have hmem : node ∈ g.nodes.toList := Array.mem_toList_iff.2 (Array.mem_of_getElem? hnode)
  exact List.mem_flatMap.2 ⟨node, hmem, by simp [h]⟩

theorem mem_descriptions_of_property {shape : Schema.Shape} {p : Schema.Property} {text : String}
    (hnode : g.node? id = some node) (hkind : node.kind = .object shape)
    (hp : p ∈ shape.properties) (h : p.summary = some text) : text ∈ g.descriptions := by
  have hmem : node ∈ g.nodes.toList := Array.mem_toList_iff.2 (Array.mem_of_getElem? hnode)
  have hshape : node.shape? = some shape := by simp [Node.shape?, hkind]
  refine List.mem_flatMap.2 ⟨node, hmem, List.mem_append_right _ ?_⟩
  simp only [hshape, Option.toList_some, List.flatMap_singleton]
  exact List.mem_filterMap.2 ⟨p, hp, h⟩

theorem describes_of_node (hnode : g.node? id = some node) (h : line ∈ docLines node.summary) :
    g.Describes line :=
  describes_of_summary (fun _ htext => mem_descriptions_of_node hnode htext) h

theorem describes_of_property {shape : Schema.Shape} {p : Schema.Property}
    (hnode : g.node? id = some node) (hkind : node.kind = .object shape)
    (hp : p ∈ shape.properties)
    (h : line ∈ docLines (Walk.propertySummary p (g.node? (g.dereference p.schema)))) :
    g.Describes line := by
  refine describes_of_summary (fun text htext => ?_) h
  rcases Option.or_eq_some_iff.1 htext with hown | ⟨-, hinline⟩
  · exact mem_descriptions_of_property hnode hkind hp hown
  · split_ifs at hinline
    obtain ⟨target, htarget, hsummary⟩ := Option.bind_eq_some_iff.1 hinline
    exact mem_descriptions_of_node htarget hsummary

end Schema.Graph

theorem Contract.Enumeration.doc_ofValues (name : String) (doc : List String)
    (values : List Json.Value) : (ofValues name doc values).doc = doc := by
  unfold ofValues
  split <;> rfl

/-! ### Unions along the walk -/

namespace Walk

variable {g : Graph} {w w' : Walk} {id : NodeId} {node : Node} {tasks : List Task}

/-- Whether a contract is no union, or one that shows the description of a node or nothing. -/
def UnionDocs (node : Node) (c : Contract) : Prop :=
  ∀ u, c.body = .union u → ∀ line ∈ u.doc, line ∈ docLines node.summary

/-- A name is all that is needed to declare a contract. -/
theorem declareNamed_cases {hint : Option String}
    {body : Walk → String → Option (Walk × List Task)}
    (h : w.declareNamed g id hint body = some (w', tasks)) :
    w'.contracts = w.contracts ∨
      ∃ w₁ name, w₁.contracts = w.contracts ∧ body w₁ name = some (w', tasks) := by
  unfold declareNamed at h
  split at h
  · rename_i w₁ name hname
    obtain ⟨_, r, -, -, rfl⟩ | ⟨_, _, ⟨⟩, _⟩ := name?_cases hname
    exact .inr ⟨{ w with resolver := r }, name, rfl, h⟩
  · rename_i w₁ hname
    obtain ⟨rfl, -⟩ := Prod.mk.inj (Option.some.inj h)
    obtain ⟨_, _, _, ⟨⟩, _⟩ | ⟨fault, -, -, rfl⟩ := name?_cases hname
    exact .inl (contracts_report _ _)

theorem declareUnion_docs {variants : List NodeId} {name : String}
    (h : w.declareUnion g id node variants name = some (w', tasks)) :
    ∀ c ∈ w'.contracts, c ∈ w.contracts ∨ UnionDocs node c := by
  simp only [declareUnion, Option.bind_eq_bind, Option.bind_eq_some_iff, Prod.exists] at h
  obtain ⟨w₁, cases, ts, hcases, h⟩ := h
  obtain ⟨rfl, -⟩ := Prod.mk.inj (Option.some.inj h)
  intro c hc
  rw [contracts_declare, List.mem_append, List.mem_singleton] at hc
  rcases hc with hold | rfl
  · exact .inl ((cases_part hcases).1.fills.contracts ▸ hold)
  · refine .inr ?_
    rintro u ⟨⟩ line hline
    simp only at hline
    split_ifs at hline
    · simp at hline
    · exact hline

theorem enter_union_docs {hint : Option String} {isRoot : Bool}
    (h : w.enter g id node hint isRoot = some (w', tasks)) :
    ∀ c ∈ w'.contracts, c ∈ w.contracts ∨ UnionDocs node c := by
  by_cases hunion : ∃ variants, node.kind = .union variants
  · obtain ⟨variants, hkind⟩ := hunion
    simp only [enter, hkind] at h
    split_ifs at h
    · obtain ⟨rfl, -⟩ := Prod.mk.inj (Option.some.inj h)
      exact fun c hc => .inl (by rwa [contracts_report] at hc)
    · rcases declareNamed_cases h with hsame | ⟨w₁, name, hsame, hbody⟩
      · exact fun c hc => .inl (hsame ▸ hc)
      · rw [← hsame]
        exact declareUnion_docs hbody
    · obtain ⟨rfl, -⟩ := Prod.mk.inj (Option.some.inj h)
      exact fun c hc => .inl hc
  · intro c hc
    refine (enter_makes h c hc).imp_right ?_
    -- what is made of another node is no union
    rintro ⟨-, hmade⟩ u hu
    rw [hu] at hmade
    cases hmade with
    | union hkind _ => exact absurd ⟨_, hkind⟩ hunion

/-- **The comments of unions** show the descriptions of their nodes, if anything. -/
theorem Reached.union_docs {rootName : Option String} (h : Reached g rootName w tasks) :
    ∀ c ∈ w.contracts, ∃ id node, g.node? id = some node ∧ UnionDocs node c := by
  refine h.induct_visit (P := fun w _ => ∀ c ∈ w.contracts, ∃ id node,
    g.node? id = some node ∧ UnionDocs node c) (by simp [contracts]) ?_
  intro w task rest w' more _ ih hvisit c hc
  by_cases hseen : g.dereference task.node ∈ w.visited
  · obtain ⟨rfl, -⟩ := by simpa [visit, hseen] using hvisit
    exact ih c hc
  · cases hnode : g.node? (g.dereference task.node) with
    | none =>
      obtain ⟨rfl, -⟩ := by simpa [visit, hseen, hnode] using hvisit
      exact ih c hc
    | some node =>
      have hdocs := enter_union_docs (visit_of_new hseen hnode ▸ hvisit)
      rcases hdocs c hc with hold | hnew
      · exact ih c hold
      · exact ⟨_, node, hnode, hnew⟩

end Walk

/-! ### Plans -/

/-- **Comments show descriptions**: a line of a comment is a line of some description. -/
theorem Plan.describes_docs {g : Graph} {rootName : Option String} {p : Plan}
    (h : Plan.ofGraph g rootName = some p) {c : Contract} (hc : c ∈ p.contracts) :
    ∀ line ∈ c.docs, g.Describes line := by
  obtain ⟨made, hmadeNode, hmade⟩ := Plan.made h c hc
  obtain ⟨w, hw, hcontracts, -, -⟩ := Plan.reached_of_ofGraph h
  obtain ⟨id, node, hnode, hunion⟩ := hw.union_docs c (hcontracts ▸ hc)
  obtain ⟨i, name, body⟩ := c
  replace hmade : Contract.Made g i made name body := hmade
  intro line hline
  cases hmade with
  | enumeration hkind =>
    refine Graph.describes_of_node hmadeNode ?_
    simpa [Contract.docs, Contract.summaries, Contract.Enumeration.doc_ofValues] using hline
  | union hkind hcases =>
    refine Graph.describes_of_node hnode (hunion _ rfl line ?_)
    simpa [Contract.docs, Contract.summaries] using hline
  | record hkind hbase hmembers hhierarchy =>
    simp only [Contract.docs, Contract.summaries, List.flatMap_cons, List.mem_append,
      List.flatMap_map] at hline
    rcases hline with hline | hline
    · exact Graph.describes_of_node hmadeNode hline
    · obtain ⟨m, hm, hline⟩ := List.mem_flatMap.1 hline
      -- the comments of members are known from the properties, whatever the members are named
      have hdocs := (Contract.map_distinctMembers Contract.Member.doc (fun _ _ => rfl) name _).trans
        (Walk.map_members (fun _ _ => rfl) hmembers)
      obtain ⟨property, hproperty, hdoc⟩ := List.mem_map.1 (hdocs ▸ List.mem_map_of_mem hm)
      rw [← hdoc] at hline
      exact Graph.describes_of_property hmadeNode hkind (List.mem_of_mem_filter hproperty) hline

end ContractGen
