import ContractGen.Proofs.Closure
import ContractGen.Proofs.TemplateModels
import ContractGen.Proofs.TypeArguments

/-!
# Unions in the texts of types

A template is given types as texts. `MentionsUnion n text` says of a text that there is a union of
`n` types in it: in place, as an item of a collection, or inside of another union. It goes by the
text alone. A text that was written for a reference mentions the unions which the reference has
(`TypeRef.mentionsUnion_memberText`), as long as names of types are legal: then brackets are those
of collections and unions only.

So all that a contract asks of support types can be read off its model (`Contract.asksFor_draft`).
-/

namespace ContractGen

open Schema (Graph)
open Identifier (isLegal)

/-- The types between the brackets of a generic type. -/
def argumentsOf (inner : String) : List String :=
  if inner = "" then [] else argumentTexts inner

/-- The text of a type has a union of `n` types in it. -/
inductive MentionsUnion (n : Nat) : String → Prop where
  /-- It is one. -/
  | union {inner : String} (arity : (argumentsOf inner).length = n) :
      MentionsUnion n ("OneOf<" ++ inner ++ ">")
  /-- It is another union, and one of its types has it. -/
  | argument {inner argument : String} (listed : argument ∈ argumentsOf inner)
      (mentions : MentionsUnion n argument) : MentionsUnion n ("OneOf<" ++ inner ++ ">")
  /-- It is a collection, and its items have it. -/
  | item {item : String} (mentions : MentionsUnion n item) :
      MentionsUnion n ("System.Collections.Generic.ICollection<" ++ item ++ ">")
  /-- It is a type that may be null. -/
  | nullable {text : String} (mentions : MentionsUnion n text) : MentionsUnion n (text ++ "?")

theorem between_inj {start stop a b : String} (h : start ++ a ++ stop = start ++ b ++ stop) :
    a = b := by
  have hchars := congrArg String.toList h
  simp only [String.toList_append] at hchars
  exact String.toList_inj.1 (List.append_cancel_left (List.append_cancel_right hchars))

theorem head_of_between {start start' a b stop : String} {c c' : Char} {cs cs' : List Char}
    (h : start ++ a ++ stop = start' ++ b ++ stop) (hstart : start.toList = c :: cs)
    (hstart' : start'.toList = c' :: cs') : c = c' := by
  have hchars := congrArg String.toList h
  simp only [String.toList_append, hstart, hstart', List.cons_append, List.cons.injEq] at hchars
  exact hchars.1

theorem append_mark_ne (marked closed : String) : marked ++ "?" ≠ closed ++ ">" := by
  intro h
  have hlast := congrArg (fun text => text.toList.getLast?) h
  simp at hlast

theorem append_bracket_ne_empty (text : String) : text ++ ">" ≠ "" := by
  simp

theorem mentionsUnion_mark {n : Nat} {text : String} :
    MentionsUnion n (text ++ "?") ↔ MentionsUnion n text := by
  refine ⟨fun h => ?_, .nullable⟩
  generalize htext : text ++ "?" = marked at h
  cases h with
  | union _ => exact absurd htext (append_mark_ne _ _)
  | argument _ _ => exact absurd htext (append_mark_ne _ _)
  | item _ => exact absurd htext (append_mark_ne _ _)
  | nullable h =>
    have hchars := congrArg String.toList htext
    simp only [String.toList_append] at hchars
    rwa [String.toList_inj.1 (List.append_cancel_right hchars)]

theorem collectionText_ne (item inner : String) :
    collectionText item ≠ "OneOf<" ++ inner ++ ">" := fun h =>
  absurd (head_of_between h String.toList_ofList String.toList_ofList) (by decide)

/-! ### Texts of references -/

namespace TypeRef

variable {t : TypeRef}

/-- Only collections and unions have brackets. -/
theorem plain_or_generic (h : ∀ name ∈ t.names, isLegal name = true) :
    (t.text ≠ "" ∧ ∀ c ∈ t.text.toList, Text.isPlain c = true) ∨
      (∃ item, t = .collection item) ∨ ∃ cases, t = .oneOf cases := by
  cases t with
  | builtin type format => exact .inl (Builtin.isPlain_of_mem_names (Builtin.name_mem_names ..))
  | named name isValue =>
    have hname : isLegal name = true := h name (by simp [names])
    refine .inl ⟨?_, isPlain_of_isLegal hname⟩
    rintro rfl
    cases hname
  | collection item => exact .inr (.inl ⟨item, rfl⟩)
  | oneOf cases => exact .inr (.inr ⟨cases, rfl⟩)
  | unknown => exact .inl (Builtin.isPlain_of_mem_names (by decide))

theorem text_ne_empty (h : ∀ name ∈ t.names, isLegal name = true) : t.text ≠ "" := by
  obtain ⟨hne, -⟩ | ⟨item, rfl⟩ | ⟨cases, rfl⟩ := plain_or_generic h
  · exact hne
  · exact append_bracket_ne_empty _
  · exact append_bracket_ne_empty _

theorem text_ne_append_mark (h : ∀ name ∈ t.names, isLegal name = true) (text : String) :
    t.text ≠ text ++ "?" := by
  intro htext
  obtain ⟨-, hplain⟩ | ⟨item, rfl⟩ | ⟨cases, rfl⟩ := plain_or_generic h
  · exact absurd (hplain '?' (by simp [htext])) (by decide)
  · exact append_mark_ne _ _ htext.symm
  · exact append_mark_ne _ _ htext.symm

theorem eq_oneOf_of_text {inner : String} (h : ∀ name ∈ t.names, isLegal name = true)
    (htext : t.text = "OneOf<" ++ inner ++ ">") :
    ∃ cases, t = .oneOf cases ∧ inner = argumentsText (texts cases) := by
  obtain ⟨-, hplain⟩ | ⟨item, rfl⟩ | ⟨cases, rfl⟩ := plain_or_generic h
  · exact absurd (hplain '<' (by simp [htext])) (by decide)
  · exact absurd htext (collectionText_ne _ _)
  · exact ⟨cases, rfl, (between_inj htext).symm⟩

theorem eq_collection_of_text {inner : String} (h : ∀ name ∈ t.names, isLegal name = true)
    (htext : t.text = "System.Collections.Generic.ICollection<" ++ inner ++ ">") :
    ∃ item : TypeRef, t = .collection item ∧ inner = item.text := by
  obtain ⟨-, hplain⟩ | ⟨item, rfl⟩ | ⟨cases, rfl⟩ := plain_or_generic h
  · exact absurd (hplain '<' (by simp [htext])) (by decide)
  · refine ⟨item, rfl, ?_⟩
    exact (between_inj htext).symm
  · exact absurd htext.symm (collectionText_ne _ _)

theorem argumentsOf_texts {cases : List TypeRef}
    (h : ∀ name ∈ namesAll cases, isLegal name = true) :
    argumentsOf (argumentsText (texts cases)) = texts cases := by
  cases cases with
  | nil => rfl
  | cons t ts =>
    have hread := argumentTexts_argumentsText (by simp [texts]) (isArgument_texts (t :: ts) h)
    have hne : argumentsText (texts (t :: ts)) ≠ "" := by
      intro hempty
      have hempties : argumentTexts "" = [""] := by decide
      rw [hempty, hempties, texts, List.cons.injEq] at hread
      simp only [namesAll, List.forall_mem_append] at h
      exact text_ne_empty h.1 hread.1.symm
    rw [argumentsOf, if_neg hne, hread]

mutual

theorem mentionsUnion_of_mem {n : Nat} {t : TypeRef} (h : ∀ name ∈ t.names, isLegal name = true)
    (hn : n ∈ t.arities) : MentionsUnion n t.text := by
  cases t with
  | builtin type format => simp [arities] at hn
  | named name isValue => simp [arities] at hn
  | collection item =>
    rw [arities] at hn
    exact .item (mentionsUnion_of_mem (by simpa only [names] using h) hn)
  | oneOf cases =>
    have hcases : ∀ name ∈ namesAll cases, isLegal name = true := by simpa only [names] using h
    rw [arities, List.mem_append, List.mem_singleton] at hn
    rcases hn with hn | rfl
    · obtain ⟨text, htext, hmentions⟩ := exists_mentionsUnion hcases hn
      rw [← argumentsOf_texts hcases] at htext
      exact .argument htext hmentions
    · refine .union ?_
      rw [argumentsOf_texts hcases, texts_eq_map, List.length_map]
  | unknown => simp [arities] at hn

theorem exists_mentionsUnion {n : Nat} {ts : List TypeRef}
    (h : ∀ name ∈ namesAll ts, isLegal name = true) (hn : n ∈ aritiesAll ts) :
    ∃ text ∈ texts ts, MentionsUnion n text := by
  cases ts with
  | nil => simp [aritiesAll] at hn
  | cons t ts =>
    simp only [namesAll, List.forall_mem_append] at h
    simp only [aritiesAll, List.mem_append] at hn
    simp only [texts, List.exists_mem_cons_iff]
    exact hn.imp (mentionsUnion_of_mem h.1) (exists_mentionsUnion h.2)

end

theorem mem_of_mentionsUnion {n : Nat} {text : String} (hmentions : MentionsUnion n text) :
    ∀ {t : TypeRef}, (∀ name ∈ t.names, isLegal name = true) → t.text = text → n ∈ t.arities := by
  induction hmentions with
  | union harity =>
    intro t h htext
    obtain ⟨cases, rfl, rfl⟩ := eq_oneOf_of_text h htext
    have hcases : ∀ name ∈ namesAll cases, isLegal name = true := by simpa only [names] using h
    rw [argumentsOf_texts hcases, texts_eq_map, List.length_map] at harity
    simp [arities, harity]
  | argument hlisted _ ih =>
    intro t h htext
    obtain ⟨cases, rfl, rfl⟩ := eq_oneOf_of_text h htext
    have hcases : ∀ name ∈ namesAll cases, isLegal name = true := by simpa only [names] using h
    rw [argumentsOf_texts hcases, texts_eq_map, List.mem_map] at hlisted
    obtain ⟨t, ht, htext⟩ := hlisted
    have hmem := mem_aritiesAll.2 ⟨t, ht, ih (fun name hname =>
      hcases name (mem_namesAll.2 ⟨t, ht, hname⟩)) htext⟩
    simp [arities, hmem]
  | item _ ih =>
    intro t h htext
    obtain ⟨item, rfl, rfl⟩ := eq_collection_of_text h htext
    rw [arities]
    exact ih (by simpa only [names] using h) rfl
  | nullable _ _ =>
    intro t h htext
    exact absurd htext (text_ne_append_mark h _)

theorem mentionsUnion_text {n : Nat} (h : ∀ name ∈ t.names, isLegal name = true) :
    MentionsUnion n t.text ↔ n ∈ t.arities :=
  ⟨fun hmentions => mem_of_mentionsUnion hmentions h rfl, mentionsUnion_of_mem h⟩

/-- **The text of a member has the unions of its type.** -/
theorem mentionsUnion_memberText {n : Nat} (h : ∀ name ∈ t.names, isLegal name = true)
    (nullable annotations : Bool) :
    MentionsUnion n (t.memberText nullable annotations) ↔ n ∈ t.arities := by
  rw [memberText, nullableText]
  split_ifs
  · rw [mentionsUnion_mark, mentionsUnion_text h]
  · exact mentionsUnion_text h

end TypeRef

/-! ### Models of contracts -/

theorem Walk.Reached.isLegal_types {g : Graph} {w : Walk} {tasks : List Task}
    {rootName : Option String} (h : Reached g rootName w tasks) :
    ∀ c ∈ w.contracts, ∀ name ∈ TypeRef.namesAll c.types, isLegal name = true := by
  intro c hc name hname
  obtain ⟨i, hi⟩ := h.accounts.named c hc name (List.mem_append_right _ hname)
  exact h.isLegal_nameOf i name hi

namespace Contract

/-- A member or case of a contract has a union of an arity in place, at any depth. -/
def HasUnionInPlace (c : Contract) (n : Nat) : Prop := ∃ t ∈ c.types, n ∈ t.arities

/-- The model for a template shows what the contract asks of support types. -/
structure AsksFor (c : Contract) (d : Draft) : Prop where
  /-- The unions in place are those in the types of properties and variants. -/
  unionsInPlace : ∀ n, c.HasUnionInPlace n ↔ ∃ text ∈ d.typeTexts, MentionsUnion n text
  /-- The cases of a union are the variants. -/
  unions : ∀ n, c.unionArity? = some n ↔
    d.template = Template.Name.namedUnion ∧ (d.entries "variants").length = n
  /-- A hierarchy has a discriminator. -/
  hierarchies : c.hasHierarchy = true ↔
    ∃ m : Model.Discriminator, d.model.get? "discriminator" = some m.toValue
  /-- A plain date has a property with the format of dates. -/
  dates : c.hasDate = true ↔ ∃ entry ∈ d.entries "properties",
    entry.get? "date_format" = some (.bool true)

theorem mentionsUnion_typeTexts {c : Contract} {n : Nat}
    (h : ∀ name ∈ TypeRef.namesAll c.types, isLegal name = true) (annotations : Bool) :
    (∃ text ∈ c.typeTexts annotations, MentionsUnion n text) ↔ c.HasUnionInPlace n := by
  have hlegal : ∀ t ∈ c.types, ∀ name ∈ t.names, isLegal name = true := fun t ht name hname =>
    h name (TypeRef.mem_namesAll.2 ⟨t, ht, hname⟩)
  unfold HasUnionInPlace
  cases hbody : c.body with
  | record r =>
    simp only [types, hbody, List.mem_map, forall_exists_index, and_imp,
      forall_apply_eq_imp_iff₂] at hlegal
    simp only [typeTexts, types, hbody, List.mem_map, exists_exists_and_eq_and]
    refine exists_congr fun m => and_congr_right fun hm => ?_
    exact TypeRef.mentionsUnion_memberText (hlegal m hm) _ _
  | enumeration e => simp [typeTexts, types, hbody]
  | union u =>
    simp only [types, hbody, List.mem_map, forall_exists_index, and_imp,
      forall_apply_eq_imp_iff₂] at hlegal
    simp only [typeTexts, types, hbody, List.mem_map, exists_exists_and_eq_and]
    exact exists_congr fun k => and_congr_right fun hk => TypeRef.mentionsUnion_text (hlegal k hk)

theorem asksFor_draft {c : Contract} (h : ∀ name ∈ TypeRef.namesAll c.types, isLegal name = true)
    (s : Settings) : c.AsksFor (c.draft s) where
  unionsInPlace n := by rw [typeTexts_draft, mentionsUnion_typeTexts h]
  unions n := unionArity?_draft s n
  hierarchies := hasHierarchy_draft s
  dates := hasDate_draft s

end Contract

end ContractGen
