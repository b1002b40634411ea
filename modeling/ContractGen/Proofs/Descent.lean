import ContractGen.Proofs.Naming

/-!
# Rendering references

`Resolver.descend` renders a reference to a node, going through arrays and through unions that are
declared in place. `descend_rule` is the induction on such a descent, with one case for each way
a reference is rendered. `descend_rendered` reads off it all that a descent does (`Rendered`): it
names nodes that the reference leads to, and only those that are declared as types; it records the
arities of the unions in the reference, and nothing else; the names in the reference are names of
nodes, and every new name is among them; and it fails without a trace.
-/

namespace ContractGen

open Schema (Graph Node NodeId Kind)
open Identifier (IsFirstFree)

namespace TypeRef

mutual

/-- The arities of the unions declared in place in a reference, at any depth. -/
def arities : TypeRef → List Nat
  | .builtin _ _ => []
  | .named _ _ => []
  | .collection item => item.arities
  | .oneOf cases => aritiesAll cases ++ [cases.length]
  | .unknown => []

/-- `arities` of all references in a row. -/
def aritiesAll : List TypeRef → List Nat
  | [] => []
  | t :: rest => t.arities ++ aritiesAll rest

end

mutual

/-- The names of declared types in a reference, at any depth. -/
def names : TypeRef → List String
  | .builtin _ _ => []
  | .named name _ => [name]
  | .collection item => item.names
  | .oneOf cases => namesAll cases
  | .unknown => []

/-- `names` of all references in a row. -/
def namesAll : List TypeRef → List String
  | [] => []
  | t :: rest => t.names ++ namesAll rest

end

end TypeRef

/-- Whether a node is declared as a type wherever it is mentioned: an object, an enumeration, or a
union of something that declares a name. -/
def Schema.Node.isNominal (node : Node) : Bool :=
  match node.kind with
  | .object _ => true
  | .enumeration _ => true
  | .union variants => !variants.isEmpty && node.declaredName.isSome
  | _ => false

namespace Resolver

variable {g : Graph} {r r' : Resolver} {id : NodeId} {hint : Option String}

/-! ### The induction on a descent -/

theorem namedRef_cases {isValue : Bool} {out : Except Fault TypeRef}
    (h : r.namedRef g id hint isValue = (r', out)) :
    (∃ name, r.resolve g id hint = .ok (name, r') ∧ out = .ok (.named name isValue)) ∨
      ∃ fault, r.resolve g id hint = .error fault ∧ r' = r ∧ out = .error fault := by
  unfold namedRef at h
  split at h
  · rename_i name r₁ hok
    obtain ⟨rfl, rfl⟩ := by simpa using h
    exact Or.inl ⟨name, hok, rfl⟩
  · rename_i fault herr
    obtain ⟨rfl, rfl⟩ := by simpa using h
    exact Or.inr ⟨fault, herr, rfl, rfl⟩

/-- **The induction on a descent.** `P` is about a reference, `Q` about the cases of a union from
some position on. -/
theorem descend_rule
    {P : Resolver → NodeId → Option String → Resolver → Except Fault TypeRef → Prop}
    {Q : Option String → Nat → Resolver → List NodeId → Resolver → List TypeRef → Prop}
    (missing : ∀ r id hint, g.node? (g.dereference id) = none →
      P r id hint r (.error ⟨g.dereference id, hint, .unnamed⟩))
    (builtin : ∀ r id hint node type format, g.node? (g.dereference id) = some node →
      node.kind = .primitive type format → P r id hint r (.ok (.builtin type format)))
    (unknown : ∀ r id hint node target, g.node? (g.dereference id) = some node →
      node.kind = .reference target → P r id hint r (.ok .unknown))
    (array : ∀ r id hint node items r' out, g.node? (g.dereference id) = some node →
      node.kind = .array items → P r items (itemHint hint) r' out →
      P r id hint r' (out.map .collection))
    (empty : ∀ r id hint node, g.node? (g.dereference id) = some node → node.kind = .union [] →
      P r id hint r (.error ⟨g.dereference id, hint, .emptyUnion⟩))
    (inline : ∀ r id hint node variants r' cases, g.node? (g.dereference id) = some node →
      node.kind = .union variants → variants ≠ [] → r.isInline (g.dereference id) node = true →
      Q hint 0 r variants r' cases →
      P r id hint { r' with features := r'.features.withInlineUnion variants.length }
        (.ok (.oneOf cases)))
    (named : ∀ r id hint node name isValue r', g.node? (g.dereference id) = some node →
      (node.isNominal = true ∨ (∃ variants, node.kind = .union variants ∧ variants ≠ []) ∧
        (r.nameOf (g.dereference id)).isSome) →
      r.resolve g (g.dereference id) hint = .ok (name, r') →
      P r id hint r' (.ok (.named name isValue)))
    (unnamed : ∀ r id hint node fault, g.node? (g.dereference id) = some node →
      node.isNominal = true → r.resolve g (g.dereference id) hint = .error fault →
      P r id hint r (.error fault))
    (nil : ∀ hint index r, Q hint index r [] r [])
    (cons : ∀ hint index r variant rest r₁ out r₂ t r' cases,
      P r variant (caseHint hint index) r₁ out → r₁.settleCase out = (r₂, t) →
      Q hint (index + 1) r₂ rest r' cases → Q hint index r (variant :: rest) r' (t :: cases))
    (depth : Nat) (r : Resolver) (id : NodeId) (hint : Option String) (r' : Resolver)
    (out : Except Fault TypeRef) (h : descend g depth r id hint = some (r', out)) :
    P r id hint r' out := by
  induction depth generalizing r id hint r' out with
  | zero => simp [descend] at h
  | succ depth ih =>
    -- the cases of a union, by the cases of their list
    have hcases : ∀ (variants : List NodeId) (index : Nat) (r r' : Resolver)
        (hint : Option String) (cases : List TypeRef),
        caseRefs (descend g depth) hint index r variants = some (r', cases) →
        Q hint index r variants r' cases := by
      intro variants
      induction variants with
      | nil =>
        intro index r r' hint cases h
        obtain ⟨rfl, rfl⟩ : r = r' ∧ [] = cases := by simpa [caseRefs] using h
        exact nil hint index r
      | cons variant rest ihrest =>
        intro index r r' hint cases h
        simp only [caseRefs, Option.bind_eq_bind, Option.bind_eq_some_iff, Prod.exists] at h
        obtain ⟨r₁, out, hfirst, r₂, ts, hrest, heq⟩ := h
        obtain ⟨rfl, rfl⟩ := by simpa using heq
        exact cons hint index r variant rest r₁ out _ _ _ _ (ih _ _ _ _ _ hfirst) rfl
          (ihrest _ _ _ _ _ hrest)
    -- a node that is rendered by its name
    have hnamed : ∀ node isValue, g.node? (g.dereference id) = some node →
        (node.isNominal = true ∨ (∃ variants, node.kind = .union variants ∧ variants ≠ []) ∧
          (r.nameOf (g.dereference id)).isSome) →
        r.namedRef g (g.dereference id) hint isValue = (r', out) → P r id hint r' out := by
      intro node isValue hnode hkind h
      obtain ⟨name, hok, rfl⟩ | ⟨fault, herr, rfl, rfl⟩ := namedRef_cases h
      · exact named r id hint node name isValue r' hnode hkind hok
      · refine unnamed r' id hint node fault hnode (hkind.resolve_right ?_) herr
        rintro ⟨⟨variants, hunion, -⟩, hsome⟩
        obtain ⟨name, hname⟩ := Option.isSome_iff_exists.1 hsome
        have hself := Graph.dereference_of_target?_eq_none
          (Graph.target?_eq_none_of_kind hnode (by simp [hunion]))
        rw [resolve_of_named (by rw [hself, hname])] at herr
        cases herr
    simp only [descend] at h
    cases hnode : g.node? (g.dereference id) with
    | none =>
      obtain ⟨rfl, rfl⟩ : r = r' ∧ _ = out := by simpa [hnode] using h
      exact missing r id hint hnode
    | some node =>
      simp only [hnode] at h
      cases hkind : node.kind with
      | primitive type format =>
        obtain ⟨rfl, rfl⟩ : r = r' ∧ _ = out := by simpa [hkind] using h
        exact builtin r id hint node type format hnode hkind
      | reference target =>
        obtain ⟨rfl, rfl⟩ : r = r' ∧ _ = out := by simpa [hkind] using h
        exact unknown r id hint node target hnode hkind
      | object shape =>
        rw [hkind] at h
        exact hnamed node false hnode (.inl (by simp [Node.isNominal, hkind])) (by simpa using h)
      | enumeration values =>
        rw [hkind] at h
        exact hnamed node true hnode (.inl (by simp [Node.isNominal, hkind])) (by simpa using h)
      | array items =>
        simp only [hkind, Option.bind_eq_bind, Option.bind_eq_some_iff, Prod.exists] at h
        obtain ⟨r₁, item, hitem, heq⟩ := h
        obtain ⟨rfl, rfl⟩ : r₁ = r' ∧ _ = out := by simpa using heq
        exact array r id hint node items r₁ item hnode hkind (ih _ _ _ _ _ hitem)
      | union variants =>
        simp only [hkind] at h
        by_cases hempty : variants = []
        · subst hempty
          obtain ⟨rfl, rfl⟩ : r = r' ∧ _ = out := by simpa using h
          exact empty r id hint node hnode hkind
        · have hsize : variants.isEmpty = false := by simpa using hempty
          simp only [hsize, Bool.false_eq_true, ↓reduceIte] at h
          by_cases hinline : r.isInline (g.dereference id) node = true
          · simp only [hinline, ↓reduceIte, Option.bind_eq_bind, Option.bind_eq_some_iff,
              Prod.exists] at h
            obtain ⟨r₁, cases, hrun, heq⟩ := h
            obtain ⟨rfl, rfl⟩ : _ = r' ∧ _ = out := by simpa using heq
            exact inline r id hint node variants r₁ cases hnode hkind hempty hinline
              (hcases _ _ _ _ _ _ hrun)
          · rw [if_neg hinline] at h
            refine hnamed node false hnode ?_ (by simpa using h)
            cases hdeclared : node.declaredName with
            | some name => exact .inl (by simp [Node.isNominal, hkind, hdeclared, hempty])
            | none =>
              refine .inr ⟨⟨variants, hkind, hempty⟩, ?_⟩
              simpa [isInline, hdeclared, Option.isSome_iff_ne_none] using hinline

/-! ### What a descent does -/

/-- A reference to `id` under a hint leads to one to `i` under the hint `h`, through arrays and
through unions that are declared in place. -/
inductive Leads (g : Graph) (r : Resolver) :
    NodeId → Option String → NodeId → Option String → Prop where
  /-- A reference leads to itself. -/
  | here {id : NodeId} {hint : Option String} : Leads g r id hint id hint
  /-- A reference to an array leads to its items. -/
  | item {id i items : NodeId} {hint h : Option String} {node : Node} :
      g.node? id = some node → node.kind = .array items →
      Leads g r (g.dereference items) (itemHint hint) i h → Leads g r id hint i h
  /-- A reference to a union declared in place leads to its cases. -/
  | case {id i variant : NodeId} {hint h : Option String} {node : Node} {variants : List NodeId}
      {index : Nat} : g.node? id = some node → node.kind = .union variants →
      r.isInline id node = true → variants[index]? = some variant →
      Leads g r (g.dereference variant) (caseHint hint index) i h → Leads g r id hint i h

/-- A union in place under more names was one under fewer. -/
theorem isInline_of_grows {P : NodeId → String → Prop} {node : Node} (hg : Grows P r r')
    (h : r'.isInline id node = true) : r.isInline id node = true := by
  simp only [isInline, Bool.and_eq_true, Option.isNone_iff_eq_none] at h ⊢
  exact ⟨h.1, hg.unnamed h.2⟩

theorem Leads.of_grows {P : NodeId → String → Prop} {i : NodeId} {h : Option String}
    (hg : Grows P r r') (hl : Leads g r' id hint i h) : Leads g r id hint i h := by
  induction hl with
  | here => exact .here
  | item hnode hkind _ ih => exact .item hnode hkind ih
  | case hnode hkind hinline hindex _ ih =>
    exact .case hnode hkind (isInline_of_grows hg hinline) hindex ih

/-- The candidates for the nodes that a reference to `id` leads to. -/
def Offers (g : Graph) (r : Resolver) (id : NodeId) (hint : Option String) (i : NodeId)
    (c : String) : Prop :=
  ∃ h node, Leads g r (g.dereference id) hint i h ∧ g.node? i = some node ∧
    node.isNominal = true ∧ candidate? g i h = some c

/-- What stands for a reference: itself, or the type of every value if it could not be rendered. -/
def settled : Except Fault TypeRef → TypeRef
  | .ok t => t
  | .error _ => .unknown

/-- What rendering a reference to `id` does. -/
structure Rendered (g : Graph) (r : Resolver) (id : NodeId) (hint : Option String) (r' : Resolver)
    (out : Except Fault TypeRef) : Prop where
  /-- Names are given to nodes that the reference leads to. -/
  grows : Grows (Offers g r id hint) r r'
  /-- The unions in the reference are recorded. -/
  features : r'.features = (settled out).arities.foldl Features.withInlineUnion r.features
  /-- The names in the reference are names of nodes. -/
  named : ∀ name ∈ (settled out).names, ∃ i, r'.nameOf i = some name
  /-- Every new name is in the reference. -/
  fresh : ∀ i name, r'.nameOf i = some name →
    r.nameOf i = some name ∨ name ∈ (settled out).names
  /-- Nothing happens if the reference could not be rendered. -/
  unchanged : ∀ fault, out = .error fault → r' = r

/-- What rendering the cases of a union from `index` on does. -/
structure RenderedCases (g : Graph) (hint : Option String) (index : Nat) (r : Resolver)
    (variants : List NodeId) (r' : Resolver) (cases : List TypeRef) : Prop where
  /-- There is a reference for every case. -/
  length : cases.length = variants.length
  /-- Names are given to nodes that the references lead to. -/
  grows : Grows (fun i c => ∃ k variant, variants[k]? = some variant ∧
    Offers g r variant (caseHint hint (index + k)) i c) r r'
  /-- The unions in the references are recorded. -/
  features : r'.features = (TypeRef.aritiesAll cases).foldl Features.withInlineUnion r.features
  /-- The names in the references are names of nodes. -/
  named : ∀ name ∈ TypeRef.namesAll cases, ∃ i, r'.nameOf i = some name
  /-- Every new name is in the references. -/
  fresh : ∀ i name, r'.nameOf i = some name →
    r.nameOf i = some name ∨ name ∈ TypeRef.namesAll cases

theorem settleCase_eq {out : Except Fault TypeRef} {t : TypeRef} {r₂ : Resolver}
    (h : r.settleCase out = (r₂, t)) :
    t = settled out ∧ r₂.names = r.names ∧ r₂.taken = r.taken ∧ r₂.features = r.features := by
  cases out with
  | ok t' =>
    obtain ⟨rfl, rfl⟩ := by simpa [settleCase] using h
    exact ⟨rfl, rfl, rfl, rfl⟩
  | error fault =>
    obtain ⟨rfl, rfl⟩ := by simpa [settleCase] using h
    exact ⟨rfl, rfl, rfl, rfl⟩

/-- A reference for which nothing is done: it has no names and no unions. -/
theorem Rendered.idle {out : Except Fault TypeRef} (harities : (settled out).arities = [])
    (hnames : (settled out).names = []) : Rendered g r id hint r out where
  grows := .refl _ r
  features := by rw [harities, List.foldl_nil]
  named := by simp [hnames]
  fresh _ _ h := .inl h
  unchanged _ _ := rfl

theorem Rendered.array {items : NodeId} {node : Node} {out : Except Fault TypeRef}
    (hnode : g.node? (g.dereference id) = some node) (hkind : node.kind = .array items)
    (h : Rendered g r items (itemHint hint) r' out) :
    Rendered g r id hint r' (out.map .collection) := by
  have hsettled : (settled (out.map .collection)).arities = (settled out).arities ∧
      (settled (out.map .collection)).names = (settled out).names := by
    cases out <;> simp [settled, Except.map, TypeRef.arities, TypeRef.names]
  constructor
  · refine h.grows.mono ?_
    rintro i c ⟨h', n, hlead, hrest⟩
    exact ⟨h', n, .item hnode hkind hlead, hrest⟩
  · rw [hsettled.1]; exact h.features
  · rw [hsettled.2]; exact h.named
  · rw [hsettled.2]; exact h.fresh
  · intro fault hout
    cases out with
    | ok t => simp [Except.map] at hout
    | error fault' => exact h.unchanged fault' rfl

theorem Rendered.inline {node : Node} {variants : List NodeId} {cases : List TypeRef}
    (hnode : g.node? (g.dereference id) = some node) (hkind : node.kind = .union variants)
    (hinline : r.isInline (g.dereference id) node = true)
    (h : RenderedCases g hint 0 r variants r' cases) :
    Rendered g r id hint { r' with features := r'.features.withInlineUnion variants.length }
      (.ok (.oneOf cases)) where
  grows := by
    refine .trans (h.grows.mono ?_) (.same rfl rfl)
    rintro i c ⟨k, variant, hk, h', n, hlead, hrest⟩
    exact ⟨h', n, .case hnode hkind hinline hk (by simpa using hlead), hrest⟩
  features := by
    simp only [settled, TypeRef.arities, List.foldl_append, List.foldl_cons, List.foldl_nil,
      h.length, h.features]
  named := h.named
  fresh := h.fresh
  unchanged _ hout := by cases hout

theorem target?_eq_none_of_isNominal {node : Node} (hnode : g.node? id = some node)
    (hkind : node.isNominal = true ∨ (∃ variants, node.kind = .union variants ∧ variants ≠ []) ∧
      (r.nameOf id).isSome) : g.target? id = none := by
  refine Graph.target?_eq_none_of_kind hnode fun target htarget => ?_
  rcases hkind with hnominal | ⟨⟨variants, hunion, -⟩, -⟩
  · simp [Node.isNominal, htarget] at hnominal
  · simp [htarget] at hunion

theorem Rendered.byName {node : Node} {name : String} {isValue : Bool}
    (hnode : g.node? (g.dereference id) = some node)
    (hkind : node.isNominal = true ∨ (∃ variants, node.kind = .union variants ∧ variants ≠ []) ∧
      (r.nameOf (g.dereference id)).isSome)
    (hok : r.resolve g (g.dereference id) hint = .ok (name, r')) :
    Rendered g r id hint r' (.ok (.named name isValue)) := by
  have hself := Graph.dereference_of_target?_eq_none (target?_eq_none_of_isNominal hnode hkind)
  obtain ⟨hname, hgrows⟩ := resolve_grows hok
  rw [hself] at hname hgrows
  constructor
  · -- a node that is not declared everywhere has its name already
    cases hr : r.nameOf (g.dereference id) with
    | some n =>
      rw [resolve_of_named (by rw [hself, hr])] at hok
      obtain ⟨-, rfl⟩ : n = name ∧ r = r' := by simpa using hok
      exact .refl _ r
    | none =>
      have hnominal := hkind.resolve_right (by simp [hr])
      refine hgrows.mono ?_
      rintro i c ⟨rfl, hc⟩
      exact ⟨hint, node, .here, hnode, hnominal, hc⟩
  · exact (resolve_unchanged hok).1
  · intro n hn
    obtain rfl : n = name := by simpa [settled, TypeRef.names] using hn
    exact ⟨_, hname⟩
  · intro i n hi
    rcases hgrows.old_or_allowed hi with hold | ⟨-, c, rfl, -⟩
    · exact .inl hold
    · rw [hname] at hi
      obtain rfl : name = n := by simpa using hi
      exact .inr (by simp [settled, TypeRef.names])
  · intro fault hout; cases hout

theorem RenderedCases.nil (index : Nat) : RenderedCases g hint index r [] r [] where
  length := rfl
  grows := .refl _ r
  features := rfl
  named := by simp [TypeRef.namesAll]
  fresh _ _ h := .inl h

theorem RenderedCases.cons {index : Nat} {variant : NodeId} {rest : List NodeId}
    {r₁ r₂ : Resolver} {out : Except Fault TypeRef} {t : TypeRef} {cases : List TypeRef}
    (hfirst : Rendered g r variant (caseHint hint index) r₁ out)
    (hsettle : r₁.settleCase out = (r₂, t))
    (hrest : RenderedCases g hint (index + 1) r₂ rest r' cases) :
    RenderedCases g hint index r (variant :: rest) r' (t :: cases) := by
  obtain ⟨rfl, hn, ht, hf⟩ := settleCase_eq hsettle
  have hfirst' : Grows (Offers g r variant (caseHint hint index)) r r₂ :=
    hfirst.grows.trans (.same hn ht)
  constructor
  · simp [hrest.length]
  · refine .trans (hfirst'.mono fun i c hc => ⟨0, variant, rfl, by simpa using hc⟩)
      (hrest.grows.mono ?_)
    rintro i c ⟨k, v, hk, h, n, hlead, hoffer⟩
    refine ⟨k + 1, v, by simpa using hk, h, n, ?_, hoffer⟩
    have hindex : index + (k + 1) = index + 1 + k := by omega
    rw [hindex]
    exact hlead.of_grows hfirst'
  · simp only [TypeRef.aritiesAll, List.foldl_append, hrest.features, hf, hfirst.features]
  · intro name hname
    rcases List.mem_append.1 hname with hname | hname
    · obtain ⟨i, hi⟩ := hfirst.named name hname
      exact ⟨i, hrest.grows.nameOf (by rw [nameOf_of_names_eq hn, hi])⟩
    · exact hrest.named name hname
  · intro i name hi
    simp only [TypeRef.namesAll, List.mem_append]
    rcases hrest.fresh i name hi with hold | hnew
    · rw [nameOf_of_names_eq hn] at hold
      rcases hfirst.fresh i name hold with hold | hnew
      · exact .inl hold
      · exact .inr (.inl hnew)
    · exact .inr (.inr hnew)

/-- **What a descent does.** -/
theorem descend_rendered {depth : Nat} {out : Except Fault TypeRef}
    (h : descend g depth r id hint = some (r', out)) : Rendered g r id hint r' out := by
  refine descend_rule (P := Rendered g) (Q := RenderedCases g) ?missing ?builtin ?unknown ?array
    ?empty ?inline ?named ?unnamed ?nil ?cons depth r id hint r' out h
  case missing => exact fun _ _ _ _ => .idle rfl rfl
  case builtin => exact fun _ _ _ _ _ _ _ _ => .idle rfl rfl
  case unknown => exact fun _ _ _ _ _ _ _ => .idle rfl rfl
  case array => exact fun _ _ _ _ _ _ _ hnode hkind h => h.array hnode hkind
  case empty => exact fun _ _ _ _ _ _ => .idle rfl rfl
  case inline => exact fun _ _ _ _ _ _ _ hnode hkind _ hinline h => .inline hnode hkind hinline h
  case named => exact fun _ _ _ _ _ _ _ hnode hkind hok => .byName hnode hkind hok
  case unnamed => exact fun _ _ _ _ _ _ _ _ => .idle rfl rfl
  case nil => exact fun _ index _ => .nil index
  case cons => exact fun _ _ _ _ _ _ _ _ _ _ _ hfirst hsettle hrest => .cons hfirst hsettle hrest

theorem caseRefs_rendered {depth index : Nat} {variants : List NodeId} {cases : List TypeRef}
    (h : caseRefs (descend g depth) hint index r variants = some (r', cases)) :
    RenderedCases g hint index r variants r' cases := by
  induction variants generalizing index r cases with
  | nil =>
    obtain ⟨rfl, rfl⟩ : r = r' ∧ [] = cases := by simpa [caseRefs] using h
    exact .nil index
  | cons variant rest ih =>
    simp only [caseRefs, Option.bind_eq_bind, Option.bind_eq_some_iff, Prod.exists] at h
    obtain ⟨r₁, out, hfirst, r₂, ts, hrest, heq⟩ := h
    obtain ⟨rfl, rfl⟩ := by simpa using heq
    exact .cons (descend_rendered hfirst) rfl (ih hrest)

end Resolver

end ContractGen
