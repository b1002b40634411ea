import ContractGen.Proofs.Bodies
import ContractGen.Proofs.Output
import ContractGen.Proofs.Spelling
import ContractGen.Proofs.TemplateModels

/-!
# Legal names

Names in generated code come from free text. They are made by two ways of spelling, one for types
and one for members, and then kept apart by numbers at four places: among the types of a file,
the literals of an enumeration, the cases of a union and the members of a class. A name is *legal*
if it starts with `_` or a letter and goes on with `_`, letters and numbers (`Identifier.isLegal`).

Both spellings drop what is no character of a name, and put `_` in front of a first character that
is no letter: so they give legal names (`isLegal_memberName`, `isLegal_typeName`), whatever upper
case does to the characters of the text. A decimal number after a legal name leaves it legal
(`isLegal_append_number`), and that is all the four places do. Of the tables of characters only two
things are used: a character that is alphanumeric is a letter or a number, and decimal digits are
alphanumeric.

`names_legal` says this of all names in a file, and of all names that templates are given. A name
that an annotation gives to a property is taken as it is, and nothing is said about that.
-/

namespace ContractGen

open Schema (Graph Node NodeId)
open Contract (Member Enumeration Case)

namespace Identifier

/-- Whether the characters form a legal name. -/
def isLegalChars : List Char → Bool
  | [] => false
  | c :: cs => (c == '_' || Text.isAlphabetic c) && cs.all isNameChar

/-- Whether a name is legal: it is not empty, starts with `_` or a letter, and goes on with `_`,
letters and numbers. -/
def isLegal (name : String) : Bool := isLegalChars name.toList

/-! ### Spelling -/

/-- Putting `_` in front makes characters of a name legal, if it is done wherever the first of them
is no letter. -/
theorem isLegalChars_guardFirst {p : Char → Bool} {cs : List Char} (hne : cs ≠ [])
    (hchars : ∀ c ∈ cs, isNameChar c = true)
    (hfirst : ∀ c, isNameChar c = true → p c = false → c = '_' ∨ Text.isAlphabetic c = true) :
    isLegalChars (guardFirst p cs) = true := by
  cases cs with
  | nil => exact absurd rfl hne
  | cons c rest =>
    cases hp : p c with
    | true =>
      have hall : (c :: rest).all isNameChar = true := List.all_eq_true.2 hchars
      simp [guardFirst, hp, isLegalChars, hall]
    | false =>
      have hrest : rest.all isNameChar = true :=
        List.all_eq_true.2 fun d hd => hchars d (List.mem_cons_of_mem _ hd)
      have hc := hfirst c (hchars c List.mem_cons_self) hp
      simpa [guardFirst, hp, isLegalChars, hrest] using hc

/-- **Member names are legal.** -/
theorem isLegal_memberName (raw : String) : isLegal (memberName raw none) = true := by
  rw [isLegal, memberName, String.toList_ofList, memberChars]
  split_ifs with hempty
  · rfl
  · refine isLegalChars_guardFirst (by simpa using hempty) (fun c hc => (List.mem_filter.1 hc).2) ?_
    intro c hname hnumeric
    -- an alphanumeric character that is no number is a letter
    simpa [isNameChar, Text.isAlphanumeric, hnumeric] using hname

/-- **Type names are legal.** -/
theorem isLegal_typeName {hint name : String} (h : typeName? hint = some name) :
    isLegal name = true := by
  obtain ⟨hkept, hname⟩ := typeName?_eq_some_iff.1 h
  rw [isLegal, hname]
  refine isLegalChars_guardFirst hkept (fun c hc => ?_) fun c _ hletter => ?_
  · simp [isNameChar, (List.mem_filter.1 hc).2]
  · exact .inr (by simpa using hletter)

/-! ### Numbers after a name -/

theorem isLegalChars_append {cs more : List Char} (h : isLegalChars cs = true)
    (hmore : ∀ c ∈ more, isNameChar c = true) : isLegalChars (cs ++ more) = true := by
  cases cs with
  | nil => cases h
  | cons c rest =>
    rw [isLegalChars, Bool.and_eq_true, List.all_eq_true] at h
    rw [List.cons_append, isLegalChars, Bool.and_eq_true, List.all_eq_true]
    refine ⟨h.1, fun d hd => ?_⟩
    rcases List.mem_append.1 hd with hd | hd
    · exact h.2 d hd
    · exact hmore d hd

theorem isLegal_append_number {name : String} (h : isLegal name = true) (n : Nat) :
    isLegal (name ++ toString n) = true := by
  rw [isLegal, String.toList_append]
  exact isLegalChars_append h fun c hc => isNameChar_of_isDigit (isDigit_of_mem_toString hc)

theorem isLegal_withFreeSuffix {base : String} (h : isLegal base = true) (start : Nat)
    (taken : List String) : isLegal (withFreeSuffix base start taken) = true := by
  obtain ⟨k, -, hname, -, -⟩ := withFreeSuffix_isFreeSuffix base start taken
  rw [hname]
  exact isLegal_append_number h k

theorem isLegal_freeName {name base : String} (h : isLegal name = true)
    (hbase : isLegal base = true) (start : Nat) (taken : List String) :
    isLegal (freeName name base start taken) = true := by
  unfold freeName
  split_ifs
  · exact isLegal_withFreeSuffix hbase start taken
  · exact h

theorem isLegal_of_isFirstFree {c name : String} {taken : List String} (hc : isLegal c = true)
    (h : IsFirstFree c taken name) : isLegal name = true := by
  obtain ⟨-, rfl⟩ | ⟨-, k, -, rfl, -, -⟩ := h
  · exact hc
  · exact isLegal_append_number hc k

end Identifier

open Identifier (isLegal)

/-! ### Types -/

theorem Walk.Reached.isLegal_nameOf {g : Graph} {rootName : Option String} {w : Walk}
    {tasks : List Task} (h : Walk.Reached g rootName w tasks) :
    ∀ i name, w.resolver.nameOf i = some name → isLegal name = true :=
  h.forall_nameOf fun _ _ _ _ htext hname =>
    Identifier.isLegal_of_isFirstFree (Identifier.isLegal_typeName htext) hname

namespace Contract

/-! ### Literals and cases -/

theorem isLegal_nameLiterals {mark : String}
    (hmark : ∀ name, isLegal name = true → isLegal (name ++ mark) = true) (used : List String)
    (literals : List (String × String × Int)) :
    ∀ l ∈ nameLiterals mark used literals, isLegal l.name = true := by
  induction literals generalizing used with
  | nil => simp [nameLiterals]
  | cons literal rest ih =>
    obtain ⟨hint, text, number⟩ := literal
    have hplain := Identifier.isLegal_memberName hint
    intro l hl
    rcases List.mem_cons.1 hl with rfl | hl
    · exact Identifier.isLegal_freeName hplain (hmark _ hplain) 2 used
    · exact ih _ l hl

/-- The literals of an enumeration have legal names, with a mark before the number or without. -/
theorem isLegal_literals (typeName : String) (doc : List String) (values : List Json.Value) :
    ∀ l ∈ (Enumeration.ofValues typeName doc values).literals, isLegal l.name = true := by
  unfold Enumeration.ofValues
  split
  · refine isLegal_nameLiterals (fun name h => ?_) _ _
    rw [isLegal, String.toList_append]
    exact Identifier.isLegalChars_append h (by simp [Identifier.isNameChar])
  · exact isLegal_nameLiterals (fun name h => by simpa using h) _ _

theorem isLegal_cases {g : Graph} {typeName : String} {w w' : Walk} {used : List String}
    {index : Nat} {variants : List NodeId} {cases : List Case} {tasks : List Task}
    (h : Walk.cases g typeName w used index variants = some (w', cases, tasks)) :
    ∀ k ∈ cases, isLegal k.name = true := by
  intro k hk
  obtain ⟨i, hi⟩ := List.getElem?_of_mem hk
  have hlt : i < variants.length := by
    rw [← (Walk.cases_part h).2.2.1]
    exact (List.getElem?_eq_some_iff.1 hi).1
  obtain ⟨k', hk', -, hname⟩ := Walk.cases_spec h (List.getElem?_eq_getElem hlt)
  obtain rfl := Option.some.inj (hi.symm.trans hk')
  exact Identifier.isLegal_of_isFirstFree (Identifier.isLegal_memberName _) hname

/-! ### Members -/

/-- A member is that of a property, and has a legal name unless the property gives one. -/
def Member.LegalFor (p : Schema.Property) (m : Member) : Prop :=
  m.rawName = p.name ∧ (p.explicitName = none → isLegal m.name = true)

theorem legalFor_members {g : Graph} {w w' : Walk} {ps : List Schema.Property}
    {members : List Member} {tasks : List Task}
    (h : w.members g ps = some (w', members, tasks)) : List.Forall₂ Member.LegalFor ps members := by
  refine (Walk.members_eq h).imp ?_
  rintro p m ⟨type, rfl⟩
  refine ⟨rfl, fun hnone => ?_⟩
  simp only [Walk.memberOf, hnone]
  exact Identifier.isLegal_memberName p.name

theorem isLegal_distinctAfter (owner : String) (declared used names : List String) :
    List.Forall₂ (fun name settled => isLegal name = true → isLegal settled = true) names
      (distinctAfter owner declared used names) := by
  induction names generalizing used with
  | nil => exact .nil
  | cons name rest ih =>
    refine .cons (fun hname => ?_) (ih _)
    split_ifs
    · exact Identifier.isLegal_withFreeSuffix hname 1 _
    · exact hname

theorem legalFor_distinctMembers (owner : String) {ps : List Schema.Property}
    {members : List Member} (h : List.Forall₂ Member.LegalFor ps members) :
    List.Forall₂ Member.LegalFor ps (distinctMembers owner members) := by
  have hnames := isLegal_distinctAfter owner (members.map Member.name) [] (members.map Member.name)
  rw [distinctMembers, distinctNames]
  generalize distinctAfter owner (members.map Member.name) [] (members.map Member.name) =
    names at hnames
  -- properties, members and names go along with each other
  induction h generalizing names with
  | nil =>
    cases hnames
    exact .nil
  | cons hm _ ih =>
    cases hnames with
    | cons hname hrest =>
      exact .cons ⟨hm.1, fun hnone => hname (hm.2 hnone)⟩ (ih _ hrest)

/-! ### Files -/

/-- The names within a contract are legal, those apart that properties give to their members. -/
def HasLegalNames (g : Graph) (c : Contract) : Prop :=
  match c.body with
  | .record r => ∃ shape, g.shape? c.node = some shape ∧
      List.Forall₂ Member.LegalFor
        (shape.properties.filter fun p => Walk.inheritedProperty g c.node != some p.name) r.members
  | .enumeration e => ∀ l ∈ e.literals, isLegal l.name = true
  | .union u => ∀ k ∈ u.cases, isLegal k.name = true

theorem Made.hasLegalNames {g : Graph} {id : NodeId} {node : Node} {name : String} {body : Body}
    (hnode : g.node? id = some node) (h : Made g id node name body) :
    HasLegalNames g ⟨id, name, body⟩ := by
  cases h with
  | record hkind _ hmembers _ =>
    refine ⟨_, ?_, legalFor_distinctMembers name (legalFor_members hmembers)⟩
    rw [Graph.shape?, hnode, Option.bind_some, Node.shape?, hkind]
  | enumeration _ => exact isLegal_literals name _ _
  | union _ hcases => exact isLegal_cases hcases

end Contract

/-- The names in the model of a node are legal, those apart that properties give to members. -/
inductive Draft.HasLegalNames (g : Graph) (id : NodeId) (d : Draft) : Prop where
  /-- The model of a class shows the properties of its object. -/
  | record {m : Model.Class} {shape : Schema.Shape} (template : d.template = Template.Name.class)
      (model : d.model = m.toValue) (typeName : isLegal m.typeName = true)
      (node : g.shape? id = some shape)
      (properties : List.Forall₂
        (fun p q => q.rawName = p.name ∧ (p.explicitName = none → isLegal q.name = true))
        (shape.properties.filter fun p => Walk.inheritedProperty g id != some p.name)
        m.properties)
  /-- The model of an enumeration has literals. -/
  | enumeration {m : Model.Enum} (template : d.template = Template.Name.enum)
      (model : d.model = m.toValue) (typeName : isLegal m.typeName = true)
      (members : ∀ l ∈ m.members, isLegal l.name = true)
  /-- The model of a union has cases. -/
  | union {m : Model.NamedUnion} (template : d.template = Template.Name.namedUnion)
      (model : d.model = m.toValue) (typeName : isLegal m.typeName = true)
      (variants : ∀ v ∈ m.variants, isLegal v.caseName = true)

theorem Contract.HasLegalNames.draft {g : Graph} {c : Contract} (h : c.HasLegalNames g)
    (hname : isLegal c.name = true) (s : Settings) : (c.draft s).HasLegalNames g c.node := by
  cases hbody : c.body with
  | record r =>
    rw [HasLegalNames, hbody] at h
    obtain ⟨shape, hshape, hmembers⟩ := h
    obtain ⟨htemplate, -, hmodel⟩ := draft_of_record s hbody
    refine .record htemplate hmodel hname hshape ?_
    rw [Model.ofRecord, List.forall₂_map_right_iff]
    exact hmembers
  | enumeration e =>
    rw [HasLegalNames, hbody] at h
    obtain ⟨htemplate, hmodel⟩ := draft_of_enumeration s hbody
    exact .enumeration htemplate hmodel hname (by simpa [Model.ofEnumeration] using h)
  | union u =>
    rw [HasLegalNames, hbody] at h
    obtain ⟨htemplate, hmodel⟩ := draft_of_union s hbody
    exact .union htemplate hmodel hname (by simpa [Model.ofUnion] using h)

/-- **All generated names are legal**, for every graph and all settings: the names of the contracts,
and in them the names of literals, of cases, and of members whose property gives no name itself.
They are legal as they stand in the file, after numbers have told them apart, and so are the names
in the models that templates are given. -/
theorem names_legal {ε : Type} (render : Renderer ε) (s : Settings) (g : Graph)
    (file : GeneratedFile) (h : generate render s g = .ok file) :
    (∀ a ∈ file.artifacts, a.kind.category = .contract → isLegal a.typeName = true) ∧
    ∃ p, Plan.ofGraph g s.rootTypeName = some p ∧
      (p.drafts s).mapM (Draft.render render) = .ok file.artifacts ∧
      ∀ c ∈ p.contracts, isLegal c.name = true ∧ c.HasLegalNames g ∧
        c.draft s ∈ p.drafts s ∧ (c.draft s).HasLegalNames g c.node := by
  obtain ⟨p, hp, hartifacts, -⟩ := generate_eq_ok h
  obtain ⟨w, hw, hcontracts, -, -⟩ := Plan.reached_of_ofGraph hp
  have hname : ∀ c ∈ p.contracts, isLegal c.name = true := by
    intro c hc
    exact hw.isLegal_nameOf c.node c.name (hw.nameOf_of_mem c (hcontracts ▸ hc))
  refine ⟨fun a ha hcategory => ?_, p, hp, hartifacts, fun c hc => ?_⟩
  · obtain ⟨c, hc, heq⟩ := (exists_contract_iff hartifacts).1 ⟨a, ha, hcategory, rfl⟩
    rw [← heq]
    exact hname c hc
  · obtain ⟨node, hnode, hmade⟩ := Plan.made hp c hc
    have hlegal := hmade.hasLegalNames hnode
    exact ⟨hname c hc, hlegal, List.mem_append_left _ (List.mem_map_of_mem hc),
      hlegal.draft (hname c hc) s⟩

/-- The names of the members, literals or cases of a contract. -/
def Contract.innerNames (c : Contract) : List String :=
  match c.body with
  | .record r => r.members.map Member.name
  | .enumeration e => e.literals.map Contract.Literal.name
  | .union u => u.cases.map Case.name

/-- Labels of a size, with names that start with numbers, have no letters at all, meet each other,
or turn into marks in upper case. -/
def labels : Graph where
  root := 0
  nodes := #[
    { Node.ofKind (.object {
        properties := [⟨"ǰ", 1, true, false, false, none, []⟩,
          ⟨"?", 1, true, false, false, none, []⟩, ⟨"@", 2, true, false, false, none, []⟩,
          ⟨"x y", 3, true, false, false, none, []⟩, ⟨"x.y", 1, true, false, false, none, []⟩,
          ⟨"z", 1, true, false, false, none, [("name", .string "0")]⟩]
        base := none
        isAbstract := false
        discriminator := none }) with nameHint := some "1. größe" },
    Node.ofKind (.primitive .string none),
    { Node.ofKind (.enumeration [.string "", .string "plus", .string "+"]) with
      nameHint := some "²" },
    { Node.ofKind (.union [1, 1, 2]) with nameHint := some "½ or" }]

/-- The names in the file of labels; the last property gives a name that is not legal. -/
theorem names_legal_labels :
    ∃ file p, generate blankRenderer {} labels = .ok file ∧ Plan.ofGraph labels none = some p ∧
      p.contracts.map (fun c => (c.name, c.innerNames)) =
        [("_1Größe", ["J", "_", "_1", "XY", "XY1", "0"]), ("_²", ["_", "Plus", "Plus2"]),
          ("_½Or", ["_½OrCase1", "_½OrCase2", "_²"])] ∧
      (∀ a ∈ file.artifacts, a.kind.category = .contract → isLegal a.typeName = true) ∧
      ∀ c ∈ p.contracts, c.HasLegalNames labels ∧ (c.draft {}).HasLegalNames labels c.node := by
  obtain ⟨file, hfile⟩ : ∃ file, generate blankRenderer {} labels = .ok file :=
    exists_eq_ok (by decide +kernel)
  obtain ⟨htypes, p, hp, -, hcontracts⟩ := names_legal _ _ _ _ hfile
  have hnames : (Plan.ofGraph labels none).map (fun p =>
      p.contracts.map fun c => (c.name, c.innerNames)) =
      some [("_1Größe", ["J", "_", "_1", "XY", "XY1", "0"]), ("_²", ["_", "Plus", "Plus2"]),
        ("_½Or", ["_½OrCase1", "_½OrCase2", "_²"])] := by decide +kernel
  have hp' : Plan.ofGraph labels none = some p := hp
  rw [hp'] at hnames
  refine ⟨file, p, hfile, hp, Option.some.inj hnames, htypes, fun c hc => ?_⟩
  obtain ⟨-, hlegal, -, hmodel⟩ := hcontracts c hc
  exact ⟨hlegal, hmodel⟩

end ContractGen
