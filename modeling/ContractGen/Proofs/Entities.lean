import ContractGen.Code.Doc
import Mathlib.Data.List.Infix

/-!
# Entities of documentation comments

The lines of a comment are a piece of XML. `Doc.unescape` reads one as XML does, in one pass from
left to right, and `docLines_escaped` says that this gives the description back, line by line, up
to blanks at the ends of lines. It does so for every description, one that has entities or parts of
them in it included: an ampersand of the description is an entity of its own, and what follows it
is read after that entity (`Doc.unescape_escapeChar`).

A description can also be escaped by replacing one character at a time in the whole line, if the
ampersand comes first (`Doc.flatMap_escapeChar`). Later on it would hit the entities as well.
-/

namespace ContractGen

namespace Doc

/-! ### Reading entities -/

/-- The entities of comments. -/
def entities : List (List Char) := ["&amp;".toList, "&lt;".toList, "&gt;".toList]

/-- A text with the character in place of each entity. -/
def unescape : List Char → List Char
  | '&' :: 'a' :: 'm' :: 'p' :: ';' :: rest => '&' :: unescape rest
  | '&' :: 'l' :: 't' :: ';' :: rest => '<' :: unescape rest
  | '&' :: 'g' :: 't' :: ';' :: rest => '>' :: unescape rest
  | c :: rest => c :: unescape rest
  | [] => []

/-- Whether a character is markup, or starts it. -/
def isMarkup (c : Char) : Bool := c == '<' || c == '>' || c == '&'

/-- A line has no markup: no angle bracket, and no ampersand but those of entities. -/
structure IsPlain (line : List Char) : Prop where
  /-- No tag opens. -/
  no_less : '<' ∉ line
  /-- No tag closes. -/
  no_greater : '>' ∉ line
  /-- Every ampersand starts an entity. -/
  entity : ∀ after, '&' :: after <:+ line → ∃ e ∈ entities, e <+: '&' :: after

theorem unescape_cons {c : Char} (h : c ≠ '&') (rest : List Char) :
    unescape (c :: rest) = c :: unescape rest := by
  rw [unescape] <;> simp [h]

/-- **One character at a time**: how a comment shows a character is read as that character, whatever
follows. -/
theorem unescape_escapeChar (c : Char) (rest : List Char) :
    unescape (escapeChar c ++ rest) = c :: unescape rest := by
  unfold escapeChar
  split
  · rfl
  · rfl
  · rfl
  · rename_i hamp _ _
    exact unescape_cons hamp rest

theorem unescape_flatMap (cs : List Char) : unescape (cs.flatMap escapeChar) = cs := by
  induction cs with
  | nil => rfl
  | cons c rest ih => rw [List.flatMap_cons, unescape_escapeChar, ih]

theorem unescape_escapeLine (cs : List Char) : unescape (escapeLine cs) = Text.trimEnd cs :=
  unescape_flatMap (Text.trimEnd cs)

/-! ### Lines without markup -/

theorem IsPlain.cons {c : Char} {line : List Char} (h : IsPlain line) (hless : c ≠ '<')
    (hgreater : c ≠ '>') (hamp : c = '&' → ∃ e ∈ entities, e <+: c :: line) :
    IsPlain (c :: line) where
  no_less := by simp [h.no_less, hless.symm]
  no_greater := by simp [h.no_greater, hgreater.symm]
  entity := by
    intro after hafter
    rcases List.suffix_cons_iff.1 hafter with hfirst | hrest
    · obtain ⟨rfl, rfl⟩ := List.cons.inj hfirst
      exact hamp rfl
    · exact h.entity after hrest

theorem IsPlain.append {cs line : List Char} (h : IsPlain line)
    (hcs : ∀ c ∈ cs, isMarkup c = false) : IsPlain (cs ++ line) := by
  induction cs with
  | nil => exact h
  | cons c rest ih =>
    obtain ⟨⟨hless, hgreater⟩, hamp⟩ : (c ≠ '<' ∧ c ≠ '>') ∧ c ≠ '&' := by
      simpa [isMarkup] using hcs c List.mem_cons_self
    have hrest := ih fun d hd => hcs d (List.mem_cons_of_mem c hd)
    exact hrest.cons hless hgreater fun hc => absurd hc hamp

/-- An entity adds no markup: only its first character is an ampersand. -/
theorem IsPlain.entity_append {name line : List Char} (h : IsPlain line)
    (hname : '&' :: name ∈ entities) : IsPlain ('&' :: name ++ line) := by
  have hletters : ∀ e ∈ entities, e.tail.any isMarkup = false := by decide
  have hrest : IsPlain (name ++ line) :=
    h.append fun c hc => Bool.eq_false_iff.2 (List.any_eq_false.1 (hletters _ hname) c hc)
  exact hrest.cons (by decide) (by decide) fun _ =>
    ⟨_, hname, List.prefix_append ('&' :: name) line⟩

theorem IsPlain.escapeChar_append {line : List Char} (h : IsPlain line) (c : Char) :
    IsPlain (escapeChar c ++ line) := by
  unfold escapeChar
  split
  · exact h.entity_append (by decide)
  · exact h.entity_append (by decide)
  · exact h.entity_append (by decide)
  · rename_i hamp hless hgreater
    exact h.cons hless hgreater fun hc => absurd hc hamp

theorem isPlain_escapeLine (cs : List Char) : IsPlain (escapeLine cs) := by
  rw [escapeLine]
  induction Text.trimEnd cs with
  | nil => exact ⟨by simp, by simp, by simp⟩
  | cons c rest ih => exact ih.escapeChar_append c

/-! ### Replacements in a row -/

/-- A text with `text` in place of a character, wherever that stands. -/
def replace (c : Char) (text cs : List Char) : List Char :=
  cs.flatMap fun d => if d = c then text else [d]

/-- **The order of replacements.** Escaping is replacing the ampersand first and the brackets after
that, each in the whole text. -/
theorem flatMap_escapeChar (cs : List Char) :
    cs.flatMap escapeChar =
      replace '>' "&gt;".toList (replace '<' "&lt;".toList (replace '&' "&amp;".toList cs)) := by
  simp only [replace, List.flatMap_assoc]
  congr 1
  funext c
  unfold escapeChar
  split
  · rfl
  · rfl
  · rfl
  · rename_i hamp hless hgreater
    rw [if_neg hamp, List.flatMap_singleton, if_neg hless, List.flatMap_singleton, if_neg hgreater]

end Doc

/-- **Comments give their descriptions back.** Without its entities, a comment has the lines of the
description in their order, but for blanks at their ends. It has no markup, and it is what
replacements in a row give. -/
theorem docLines_escaped (text : String) :
    (docLines (some text)).map (fun line => Doc.unescape line.toList) =
      (Text.lines text.toList).map Text.trimEnd ∧
    (∀ line ∈ docLines (some text), Doc.IsPlain line.toList) ∧
    docLines (some text) = (Text.lines text.toList).map fun line => String.ofList
      (Doc.replace '>' "&gt;".toList (Doc.replace '<' "&lt;".toList
        (Doc.replace '&' "&amp;".toList (Text.trimEnd line)))) := by
  refine ⟨?_, ?_, ?_⟩
  · simp only [docLines, Doc.ofText, List.map_map]
    refine List.map_congr_left fun line _ => ?_
    simp [Doc.unescape_escapeLine]
  · intro line hline
    simp only [docLines, Doc.ofText, List.map_map, List.mem_map] at hline
    obtain ⟨cs, -, rfl⟩ := hline
    simpa using Doc.isPlain_escapeLine cs
  · simp only [docLines, Doc.ofText, List.map_map]
    exact List.map_congr_left fun line _ => congrArg String.ofList (Doc.flatMap_escapeChar _)

/-- Entities, parts of them and the characters they stand for, all in one description. -/
example : docLines (some "&lt;<&amp\n;> \r\n&") = ["&amp;lt;&lt;&amp;amp", ";&gt;", "&amp;"] := by
  decide

end ContractGen
