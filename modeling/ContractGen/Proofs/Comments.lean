import ContractGen.Generation
import ContractGen.Proofs.Descriptions
import ContractGen.Proofs.Filling
import ContractGen.Proofs.SourceLines

/-!
# Descriptions in comments

A description is shown in a comment, line by line. Its lines end at line feeds, while those of C#
also end at four other characters. At the end of a line these are dropped with the blanks there.
Within a line they stay, and the comment ends early: `Doc.breaksComment` says of which descriptions
this is true.

`Source.Adds added a b` says that a text has the lines of another one and some more, whatever stands
around it. Comments are lines added to a contract (`Contract.adds_comments`). Of each line of a
description the part up to the first line end is in a comment, and the parts after it are code
unless they look like comments themselves; `Source.spilled` holds those that are code.
-/

namespace ContractGen

open Template (Library)
open scoped List

/-! ### Lines of descriptions -/

namespace Doc

/-- Whether a character ends a line of C#, but none of the description, and text follows on the
line. -/
def breaksComment : List Char → Bool
  | [] => false
  | c :: rest =>
    (Source.isLineEnd c && c != '\n' && !(rest.takeWhile (· != '\n')).all Text.isBlank) ||
      breaksComment rest

theorem isOneLine_escapeChar (c : Char) :
    Source.isOneLine (escapeChar c) = !Source.isLineEnd c := by
  unfold escapeChar
  split
  · decide
  · decide
  · decide
  · simp [Source.isOneLine]

theorem isOneLine_flatMap_escapeChar (cs : List Char) :
    Source.isOneLine (cs.flatMap escapeChar) = Source.isOneLine cs := by
  rw [Source.isOneLine, List.all_flatMap]
  exact congrArg cs.all (funext isOneLine_escapeChar)

/-- Trimming spares a line end of C# if text follows on the line. -/
theorem isOneLine_trimEnd_cons (c : Char) (cs : List Char) :
    Source.isOneLine (Text.trimEnd (c :: cs)) =
      (!(Source.isLineEnd c && !cs.all Text.isBlank) && Source.isOneLine (Text.trimEnd cs)) := by
  rw [Text.trimEnd_cons]
  split_ifs with h
  · rw [h, Text.trimEnd_eq_nil_iff.1 h]
    by_cases hc : Text.isBlank c = true
    · simp [Text.trimEnd, hc, Source.isOneLine]
    · have hend : Source.isLineEnd c = false :=
        Bool.eq_false_iff.2 fun hend => hc (Source.isBlank_of_isLineEnd hend)
      simp [Text.trimEnd, hc, hend, Source.isOneLine]
  · rw [Bool.eq_false_iff.2 (mt Text.trimEnd_eq_nil_iff.2 h)]
    simp [Source.isOneLine]

theorem splitOnP_lineFeed (cs : List Char) :
    ∃ parts, cs.splitOnP (· == '\n') = cs.takeWhile (· != '\n') :: parts := by
  induction cs with
  | nil => exact ⟨[], by simp⟩
  | cons c rest ih =>
    obtain ⟨parts, hparts⟩ := ih
    by_cases hc : c = '\n'
    · exact ⟨_, by simp [List.splitOnP_cons_eq_if_modifyHead, hc]; rfl⟩
    · exact ⟨parts, by simp [List.splitOnP_cons_eq_if_modifyHead, hc, hparts]⟩

theorem all_isOneLine_splitOnP (cs : List Char) :
    (cs.splitOnP (· == '\n')).all (fun part => Source.isOneLine (Text.trimEnd part)) =
      !breaksComment cs := by
  induction cs with
  | nil => decide
  | cons c rest ih =>
    by_cases hc : c = '\n'
    · have hnil : Source.isOneLine (Text.trimEnd []) = true := by decide
      simp [List.splitOnP_cons_eq_if_modifyHead, breaksComment, hc, ih, hnil]
    · obtain ⟨parts, hparts⟩ := splitOnP_lineFeed rest
      rw [hparts] at ih
      have hc' : (c != '\n') = true := bne_iff_ne.2 hc
      simp only [List.splitOnP_cons_eq_if_modifyHead, hc, hparts, breaksComment, List.all_cons,
        beq_iff_eq, if_false, List.modifyHead_cons, isOneLine_trimEnd_cons, Bool.not_or, ← ih]
      simp [hc', Bool.and_assoc]

/-- **The lines of a comment stay on their lines** unless the description breaks it. -/
theorem isOneLine_ofText (cs : List Char) :
    (ofText cs).all Source.isOneLine = !breaksComment cs := by
  have hparts : (ofText cs).all Source.isOneLine =
      ((Text.lines cs).map Text.trimEnd).all Source.isOneLine := by
    simp only [ofText, escapeLine, List.all_map, Function.comp_def, isOneLine_flatMap_escapeChar]
  rw [hparts, ← all_isOneLine_splitOnP cs]
  have hmap : (cs.splitOnP (· == '\n')).all (fun part => Source.isOneLine (Text.trimEnd part)) =
      ((cs.splitOnP (· == '\n')).map Text.trimEnd).all Source.isOneLine := by
    rw [List.all_map]
    rfl
  rw [hmap]
  rcases Text.map_trimEnd_splitOnP cs with h | h
  · rw [h]
  · have hlast : Source.isOneLine [] = true := rfl
    simp [h, hlast]

end Doc

/-! ### Lines of code -/

namespace Source

/-- The lines of C# after the first that the text of a comment goes on to, but for comments. -/
def spilled (text : List Char) : List (List Char) := (lines text).tail.filter fun l => !isComment l

theorem lines_ne_nil (code : List Char) : lines code ≠ [] := List.splitOnP_ne_nil isLineEnd code

theorem lines_append_lineFeed (a b : List Char) : lines (a ++ '\n' :: b) = lines a ++ lines b :=
  List.splitOnP_append_cons a b rfl

theorem lines_append_of_isOneLine {a : List Char} (h : isOneLine a = true) (b : List Char) :
    lines (a ++ b) = (lines b).modifyHead (a ++ ·) := by
  obtain ⟨first, rest, hb⟩ := List.exists_cons_of_ne_nil (lines_ne_nil b)
  induction a with
  | nil => simp [hb]
  | cons c a ih =>
    obtain ⟨hc, ha⟩ : isLineEnd c = false ∧ isOneLine a = true := by
      simpa [isOneLine] using h
    rw [List.cons_append, lines, List.splitOnP_cons_eq_if_modifyHead, ← lines, ih ha, hb]
    simp [hc]

theorem lines_of_isOneLine {a : List Char} (h : isOneLine a = true) : lines a = [a] := by
  simpa [lines] using lines_append_of_isOneLine h []

theorem spilled_of_isOneLine {text : List Char} (h : isOneLine text = true) :
    spilled text = [] := by
  rw [spilled, lines_of_isOneLine h]
  rfl

/-! ### Comments -/

/-- A line of a comment. -/
def commentLine (margin text : List Char) : List Char := margin ++ "/// ".toList ++ text

/-- Whether a text is a margin: it has blanks only, none of which ends the line. -/
def isMargin (margin : List Char) : Bool := margin.all fun c => Text.isBlank c && !isLineEnd c

theorem isComment_commentLine {margin : List Char} (h : isMargin margin = true)
    (text : List Char) : isComment (commentLine margin text) = true := by
  have hblank : ∀ c ∈ margin, Text.isBlank c = true := by
    simp only [isMargin, List.all_eq_true, Bool.and_eq_true] at h
    exact fun c hc => (h c hc).1
  have htrim : Text.trimStart (commentLine margin text) = "/// ".toList ++ text := by
    rw [Text.trimStart, commentLine, List.append_assoc, List.dropWhile_append_of_pos hblank]
    rfl
  rw [isComment, htrim]
  rfl

/-- The first line of a comment holds what comes before the first line end of its text. -/
theorem lines_commentLine {margin : List Char} (h : isMargin margin = true) (text : List Char) :
    lines (commentLine margin text) = (lines text).modifyHead (commentLine margin) := by
  refine lines_append_of_isOneLine ?_ text
  have hmargin : isOneLine margin = true := by
    simp only [isMargin, List.all_eq_true, Bool.and_eq_true] at h
    exact List.all_eq_true.2 fun c hc => (h c hc).2
  rw [isOneLine, List.all_append, ← isOneLine, hmargin]
  rfl

theorem statements_commentLine {margin : List Char} (h : isMargin margin = true)
    (text : List Char) : statements (commentLine margin text) = spilled text := by
  obtain ⟨first, rest, htext⟩ := List.exists_cons_of_ne_nil (lines_ne_nil text)
  rw [statements, lines_commentLine h, spilled, htext]
  simp [isComment_commentLine h]

/-- The text of comment lines, each on a new line. -/
def commentBlock (margin : List Char) (texts : List (List Char)) : List Char :=
  texts.flatMap fun text => '\n' :: commentLine margin text

theorem lines_commentBlock (margin : List Char) (texts : List (List Char)) (a b : List Char) :
    lines (a ++ commentBlock margin texts ++ '\n' :: b) =
      lines a ++ texts.flatMap (fun text => lines (commentLine margin text)) ++ lines b := by
  induction texts generalizing a with
  | nil => simp [commentBlock, lines_append_lineFeed]
  | cons text texts ih =>
    have hfirst : a ++ commentBlock margin (text :: texts) ++ '\n' :: b =
        (a ++ '\n' :: commentLine margin text) ++ commentBlock margin texts ++ '\n' :: b := by
      simp [commentBlock]
    rw [hfirst, ih, lines_append_lineFeed, List.flatMap_cons]
    simp only [List.append_assoc]

/-! ### Added lines -/

/-- A text has the lines of another one in the same order and the lines `added` besides, whatever
stands around it. -/
structure Adds (added : List (List Char)) (a b : List Char) : Prop where
  /-- The lines of the other text are there. -/
  sublist : ∀ before after, (lines (before ++ b ++ after)).Sublist (lines (before ++ a ++ after))
  /-- Only the added ones are there besides. -/
  perm : ∀ before after,
    (lines (before ++ a ++ after)).Perm (lines (before ++ b ++ after) ++ added)

namespace Adds

variable {added added' : List (List Char)} {a a' b b' : List Char}

theorem refl (a : List Char) : Adds [] a a := ⟨fun _ _ => .refl _, fun _ _ => by simp⟩

theorem append (h : Adds added a b) (h' : Adds added' a' b') :
    Adds (added ++ added') (a ++ a') (b ++ b') where
  sublist before after := by
    have hfirst := h.sublist before (a' ++ after)
    have hsecond := h'.sublist (before ++ b) after
    simp only [List.append_assoc] at hfirst hsecond ⊢
    exact hsecond.trans hfirst
  perm before after := by
    have hfirst := h.perm before (a' ++ after)
    have hsecond := h'.perm (before ++ b) after
    simp only [List.append_assoc] at hfirst hsecond ⊢
    calc lines (before ++ (a ++ (a' ++ after)))
      _ ~ lines (before ++ (b ++ (a' ++ after))) ++ added := hfirst
      _ ~ (lines (before ++ (b ++ (b' ++ after))) ++ added') ++ added := hsecond.append_right _
      _ ~ lines (before ++ (b ++ (b' ++ after))) ++ (added ++ added') := by
        rw [List.append_assoc]
        exact List.perm_append_comm.append_left _

theorem flatMap {α : Type} {extra : α → List (List Char)} {f g : α → List Char} (items : List α)
    (h : ∀ x, Adds (extra x) (f x) (g x)) :
    Adds (items.flatMap extra) (items.flatMap f) (items.flatMap g) := by
  induction items with
  | nil => exact refl []
  | cons x items ih => exact (h x).append ih

/-- A block of comment lines adds these to what follows on a new line. -/
theorem commentBlock (margin : List Char) (texts : List (List Char))
    (h : a.head? = some '\n') :
    Adds (texts.flatMap fun text => lines (commentLine margin text))
      (Source.commentBlock margin texts ++ a) a := by
  obtain ⟨rest, rfl⟩ : ∃ rest, a = '\n' :: rest := List.head?_eq_some_iff.1 h
  -- the line feed that `a` starts with ends the last line of the block
  have hwith := fun before after => lines_commentBlock margin texts before (rest ++ after)
  have hwithout := fun before after => lines_append_lineFeed before (rest ++ after)
  constructor
  · intro before after
    simp only [List.append_assoc, List.cons_append] at hwith hwithout ⊢
    rw [hwith, hwithout]
    exact (List.sublist_append_right _ _).append_left _
  · intro before after
    simp only [List.append_assoc, List.cons_append] at hwith hwithout ⊢
    rw [hwith, hwithout, List.append_assoc]
    exact List.perm_append_comm.append_left _

theorem mem_lines (h : Adds added a b) {l : List Char} (hl : l ∈ added) : l ∈ lines a := by
  have hperm := h.perm [] []
  simp only [List.nil_append, List.append_nil] at hperm
  exact hperm.mem_iff.2 (List.mem_append_right _ hl)

theorem sublist_statements (h : Adds added a b) : (statements b).Sublist (statements a) := by
  simpa [statements] using (h.sublist [] []).filter fun l => !isComment l

theorem perm_statements (h : Adds added a b) :
    (statements a).Perm (statements b ++ added.filter fun l => !isComment l) := by
  simpa [statements] using (h.perm [] []).filter fun l => !isComment l

theorem statements_eq (h : Adds added a b) (hadded : (added.filter fun l => !isComment l) = []) :
    statements a = statements b := by
  have hlength := h.perm_statements.length_eq
  rw [hadded, List.append_nil] at hlength
  exact (h.sublist_statements.eq_of_length hlength.symm).symm

end Adds

end Source

/-! ### Models without comments -/

namespace Model

/-- The texts in a comment, if it has any lines. -/
def summaryTexts (docs : List String) : List (List Char) :=
  if docs.isEmpty then []
  else "<summary>".toList :: docs.map String.toList ++ ["</summary>".toList]

/-- The lines of C# that a comment adds. -/
def summaryLines (margin : String) (docs : List String) : List (List Char) :=
  (summaryTexts docs).flatMap fun text => Source.lines (Source.commentLine margin.toList text)

theorem filter_summaryLines {margin : String} (h : Source.isMargin margin.toList = true)
    (docs : List String) :
    ((summaryLines margin docs).filter fun l => !Source.isComment l) =
      docs.flatMap fun doc => Source.spilled doc.toList := by
  have hlines : ((summaryLines margin docs).filter fun l => !Source.isComment l) =
      (summaryTexts docs).flatMap Source.spilled := by
    rw [summaryLines, List.filter_flatMap]
    exact congrArg (List.flatMap · _) (funext (Source.statements_commentLine h))
  -- the first and the last line of a comment are no part of the description, and spill nothing
  have hopen : Source.spilled "<summary>".toList = [] := by decide
  have hclose : Source.spilled "</summary>".toList = [] := by decide
  rw [hlines]
  cases docs with
  | nil => rfl
  | cons doc docs =>
    simp [summaryTexts, hopen, hclose, List.flatMap_map, -String.reduceToList]

theorem commentLine_mem_summaryLines {docs : List String} {doc : String} (margin : String)
    (h : Source.isMargin margin.toList = true) (hdoc : doc ∈ docs)
    (hone : Source.isOneLine doc.toList = true) :
    Source.commentLine margin.toList doc.toList ∈ summaryLines margin docs := by
  have htext : doc.toList ∈ summaryTexts docs := by
    rw [summaryTexts, if_neg (by simp [List.ne_nil_of_mem hdoc])]
    exact List.mem_append_left _ (List.mem_cons_of_mem _ (List.mem_map_of_mem hdoc))
  refine List.mem_flatMap.2 ⟨doc.toList, htext, ?_⟩
  rw [Source.lines_commentLine h, Source.lines_of_isOneLine hone]
  exact List.mem_singleton_self _

theorem toList_summaryText (margin : String) (docs : List String) :
    (summaryText margin docs).toList = Source.commentBlock margin.toList (summaryTexts docs) := by
  cases docs with
  | nil => rfl
  | cons doc docs =>
    simp [summaryText, summaryTexts, Source.commentBlock, Source.commentLine, String.toList_join,
      List.flatMap_map]

theorem adds_summary (margin : String) (docs : List String) {pieces : List String}
    (h : (String.join pieces).toList.head? = some '\n') :
    Source.Adds (summaryLines margin docs)
      (String.join (summaryText margin docs :: pieces)).toList
      (String.join (summaryText margin [] :: pieces)).toList := by
  have hnone : String.join (summaryText margin [] :: pieces) = String.join pieces := by
    simp [summaryText]
  rw [hnone, String.join_cons, String.toList_append, toList_summaryText]
  exact .commentBlock _ _ h

/-- The member without its comment. -/
def Property.bare (p : Property) : Property := { p with description := [] }

/-- The class without its comment and those of its members. -/
def Class.bare (c : Class) : Class :=
  { c with description := [], properties := c.properties.map Property.bare }

/-- The enumeration without its comment. -/
def Enum.bare (e : Enum) : Enum := { e with description := [] }

/-- The union without its comment. -/
def NamedUnion.bare (u : NamedUnion) : NamedUnion := { u with description := [] }

theorem Property.adds (p : Property) :
    Source.Adds (summaryLines "    " p.description) p.text.toList p.bare.text.toList :=
  adds_summary "    " p.description (by simp)

/-- What a class has between its comment and its members. -/
def Class.declaration (c : Class) : List String := [
  (c.discriminator.map Discriminator.text).getD "",
  "\npublic ",
  if c.isAbstract then "abstract " else "",
  "partial class ",
  c.typeName,
  Template.clause (fun name => String.join [" : ", name]) c.baseName,
  "\n\x7b"]

theorem Class.toList_text (c : Class) :
    c.text.toList = (String.join (summaryText "" c.description :: c.declaration)).toList ++
      (c.properties.flatMap fun p => p.text.toList) ++ "\x7d\n".toList := by
  simp [Class.text, Class.declaration, String.toList_join, List.flatMap_map]

theorem Class.adds (c : Class) :
    Source.Adds
      (summaryLines "" c.description ++
        c.properties.flatMap fun p => summaryLines "    " p.description)
      c.text.toList c.bare.text.toList := by
  have hhead : (String.join c.declaration).toList.head? = some '\n' := by
    cases hd : c.discriminator <;> simp [Class.declaration, hd, Discriminator.text]
  have hmembers : Source.Adds (c.properties.flatMap fun p => summaryLines "    " p.description)
      (c.properties.flatMap fun p => p.text.toList)
      (c.properties.flatMap fun p => p.bare.text.toList) :=
    .flatMap c.properties Property.adds
  have hbare : c.bare.text.toList =
      (String.join (summaryText "" [] :: c.declaration)).toList ++
        (c.properties.flatMap fun p => p.bare.text.toList) ++ "\x7d\n".toList := by
    rw [Class.toList_text, Class.bare, List.flatMap_map]
    rfl
  rw [Class.toList_text, hbare, ← List.append_nil (_ ++ _)]
  exact ((adds_summary "" c.description hhead).append hmembers).append (.refl _)

theorem Enum.adds (e : Enum) :
    Source.Adds (summaryLines "" e.description) e.text.toList e.bare.text.toList := by
  refine adds_summary "" e.description ?_
  cases e.isStringEnum <;> simp [Template.Builtin.textConverter]

theorem NamedUnion.adds (u : NamedUnion) :
    Source.Adds (summaryLines "" u.description) u.text.toList u.bare.text.toList :=
  adds_summary "" u.description (by simp)

end Model

/-! ### Contracts -/

namespace Contract

/-- The code of a contract, with the built-in templates. -/
def code (s : Settings) (c : Contract) : String :=
  match c.body with
  | .record r => (Model.ofRecord s.nullableAnnotations c.name r).text
  | .enumeration e => (Model.ofEnumeration c.name e).text
  | .union u => (Model.ofUnion c.name u).text

theorem render_draft (s : Settings) (c : Contract) :
    ∃ a, (c.draft s).render Library.builtin.render = .ok a ∧ a.code = c.code s := by
  have hcode : Library.builtin.render (c.draft s).template (c.draft s).model =
      .ok (c.code s) := by
    obtain ⟨node, name, body⟩ := c
    cases body with
    | record r => exact Library.render_of_lookup rfl (Model.render_class _)
    | enumeration e => exact Library.render_of_lookup rfl (Model.render_enum _)
    | union u => exact Library.render_of_lookup rfl (Model.render_namedUnion _)
  exact ⟨_, by rw [Draft.render, hcode]; rfl, rfl⟩

/-- The contract without comments. -/
def withoutDocs (c : Contract) : Contract :=
  { c with
    body :=
      match c.body with
      | .record r => .record { r with doc := [], members := r.members.map ({ · with doc := [] }) }
      | .enumeration e => .enumeration { e with doc := [] }
      | .union u => .union { u with doc := [] } }

/-- The lines of C# that the comments of a contract add. -/
def commentLines (c : Contract) : List (List Char) :=
  c.summaries.flatMap fun summary => Model.summaryLines summary.1 summary.2

theorem code_withoutDocs (s : Settings) (node : Schema.NodeId) (name : String) (r : Record) :
    (withoutDocs ⟨node, name, .record r⟩).code s =
      (Model.ofRecord s.nullableAnnotations name r).bare.text := by
  refine congrArg Model.Class.text ?_
  simp only [Model.ofRecord, Model.Class.bare, List.map_map]
  rfl

/-- **Comments are lines added to a contract.** -/
theorem adds_comments (s : Settings) (c : Contract) :
    Source.Adds c.commentLines (c.code s).toList (c.withoutDocs.code s).toList := by
  obtain ⟨node, name, body⟩ := c
  cases body with
  | record r =>
    have hlines : commentLines ⟨node, name, .record r⟩ =
        Model.summaryLines "" r.doc ++
          (Model.ofRecord s.nullableAnnotations name r).properties.flatMap fun p =>
            Model.summaryLines "    " p.description := by
      simp [commentLines, summaries, Model.ofRecord, Model.ofMember, List.flatMap_map]
    rw [hlines, code_withoutDocs]
    exact (Model.ofRecord s.nullableAnnotations name r).adds
  | enumeration e =>
    have hlines : commentLines ⟨node, name, .enumeration e⟩ = Model.summaryLines "" e.doc := by
      simp [commentLines, summaries]
    rw [hlines]
    exact (Model.ofEnumeration name e).adds
  | union u =>
    have hlines : commentLines ⟨node, name, .union u⟩ = Model.summaryLines "" u.doc := by
      simp [commentLines, summaries]
    rw [hlines]
    exact (Model.ofUnion name u).adds

theorem isMargin_of_mem_summaries {c : Contract} {summary : String × List String}
    (h : summary ∈ c.summaries) : Source.isMargin summary.1.toList = true := by
  have hindent : Source.isMargin "    ".toList = true := by decide
  obtain ⟨node, name, body⟩ := c
  cases body with
  | record r =>
    rcases List.mem_cons.1 h with rfl | h
    · rfl
    · obtain ⟨m, -, rfl⟩ := List.mem_map.1 h
      exact hindent
  | enumeration e =>
    obtain rfl := List.mem_singleton.1 h
    rfl
  | union u =>
    obtain rfl := List.mem_singleton.1 h
    rfl

theorem filter_commentLines (c : Contract) :
    (c.commentLines.filter fun l => !Source.isComment l) =
      c.docs.flatMap fun doc => Source.spilled doc.toList := by
  rw [commentLines, docs, List.filter_flatMap, List.flatMap_assoc]
  refine List.flatMap_congr fun summary hsummary => ?_
  exact Model.filter_summaryLines (isMargin_of_mem_summaries hsummary) _

theorem exists_mem_commentLines {c : Contract} {doc : String} (h : doc ∈ c.docs)
    (hone : Source.isOneLine doc.toList = true) :
    ∃ l ∈ c.commentLines, Source.isComment l = true ∧ ("/// " ++ doc).toList <:+ l := by
  obtain ⟨summary, hsummary, hdoc⟩ := List.mem_flatMap.1 h
  have hmargin := isMargin_of_mem_summaries hsummary
  have hline := Model.commentLine_mem_summaryLines summary.1 hmargin hdoc hone
  refine ⟨_, List.mem_flatMap.2 ⟨summary, hsummary, hline⟩,
    Source.isComment_commentLine hmargin _, ?_⟩
  rw [Source.commentLine, String.toList_append, List.append_assoc]
  exact List.suffix_append _ _

end Contract

/-- **Where descriptions become code.** All lines of a comment stay on their lines if and only if
the description has no line end of C# other than a line feed before more text on the same line.
The comments of a contract show lines of descriptions only. With the built-in templates its code has
the statements that it has without comments, in the same order. The others are those that lines of
descriptions spill, and there are none if these stay on their lines: each is then at the end of a
comment. -/
theorem descriptions_in_comments {g : Schema.Graph} {s : Settings} {p : Plan}
    (h : Plan.ofGraph g s.rootTypeName = some p) {c : Contract} (hc : c ∈ p.contracts) :
    (∀ text : String, (∀ line ∈ docLines (some text), Source.isOneLine line.toList = true) ↔
      Doc.breaksComment text.toList = false) ∧
    (∀ line ∈ c.docs, g.Describes line) ∧
    ∃ a bare,
      (c.draft s).render Library.builtin.render = .ok a ∧
      (c.withoutDocs.draft s).render Library.builtin.render = .ok bare ∧
      (Source.statements bare.code.toList).Sublist (Source.statements a.code.toList) ∧
      (Source.statements a.code.toList).Perm (Source.statements bare.code.toList ++
        c.docs.flatMap fun line => Source.spilled line.toList) ∧
      ((∀ line ∈ c.docs, Source.isOneLine line.toList = true) →
        Source.statements a.code.toList = Source.statements bare.code.toList ∧
        ∀ line ∈ c.docs, ∃ l ∈ Source.lines a.code.toList,
          Source.isComment l = true ∧ ("/// " ++ line).toList <:+ l) := by
  refine ⟨fun text => ?_, Plan.describes_docs h hc, ?_⟩
  · have hlines := Doc.isOneLine_ofText text.toList
    rw [← Bool.not_eq_true', ← hlines]
    simp [docLines]
  · obtain ⟨a, ha, hcode⟩ := c.render_draft s
    obtain ⟨bare, hbare, hbareCode⟩ := c.withoutDocs.render_draft s
    have hadds := c.adds_comments s
    rw [← hcode, ← hbareCode] at hadds
    refine ⟨a, bare, ha, hbare, hadds.sublist_statements, ?_, fun hone => ⟨?_, ?_⟩⟩
    · rw [← c.filter_commentLines]
      exact hadds.perm_statements
    · refine hadds.statements_eq ?_
      rw [c.filter_commentLines, List.flatMap_eq_nil_iff]
      exact fun line hline => Source.spilled_of_isOneLine (hone line hline)
    · intro line hline
      obtain ⟨l, hl, hcomment⟩ := Contract.exists_mem_commentLines hline (hone line hline)
      exact ⟨l, hadds.mem_lines hl, hcomment⟩

/-- An object with a property, both with descriptions. -/
def crate : Schema.Graph where
  root := 0
  nodes := #[
    { Schema.Node.ofKind (.object {
        properties := [⟨"size", 1, true, false, false, some "Its size.\r", []⟩]
        base := none
        isAbstract := false
        discriminator := none }) with
      nameHint := some "Crate"
      description := some "A crate.\u2028\r\nFor <one> dog." },
    Schema.Node.ofKind (.primitive .integer none)]

/-- Both descriptions have line ends of C#, but without text after them on their lines. -/
theorem descriptions_in_comments_crate :
    ∃ p c, Plan.ofGraph crate none = some p ∧ c ∈ p.contracts ∧
      c.docs = ["A crate.", "For &lt;one&gt; dog.", "Its size."] ∧
      ∃ a bare, (c.draft {}).render Library.builtin.render = .ok a ∧
        (c.withoutDocs.draft {}).render Library.builtin.render = .ok bare ∧
        Source.statements a.code.toList = Source.statements bare.code.toList ∧
        ∀ line ∈ c.docs, ∃ l ∈ Source.lines a.code.toList,
          Source.isComment l = true ∧ ("/// " ++ line).toList <:+ l := by
  have hplan : (Plan.ofGraph crate none).bind (fun p => p.contracts.head?.map Contract.docs) =
      some ["A crate.", "For &lt;one&gt; dog.", "Its size."] := by rfl
  obtain ⟨p, hp, hhead⟩ := Option.bind_eq_some_iff.1 hplan
  obtain ⟨c, hc, hdocs⟩ := Option.map_eq_some_iff.1 hhead
  have hmem : c ∈ p.contracts := List.mem_of_mem_head? hc
  have hone : ∀ line ∈ c.docs, Source.isOneLine line.toList = true := by
    rw [hdocs]
    decide
  have hall := descriptions_in_comments (g := crate) (s := {}) hp hmem
  obtain ⟨-, -, a, bare, ha, hbare, -, -, h⟩ := hall
  exact ⟨p, c, hp, hmem, hdocs, a, bare, ha, hbare, h hone⟩

/-- A class with a carriage return in its description. -/
def brokenCrate : Contract where
  node := 0
  name := "Crate"
  body := .record {
    base := none
    isAbstract := false
    doc := docLines (some "A crate.\rpublic class Dog;")
    hierarchy := none
    members := [] }

/-- What follows a carriage return in a description is code. -/
theorem description_becomes_code :
    brokenCrate.docs = ["A crate.\rpublic class Dog;"] ∧
    Doc.breaksComment "A crate.\rpublic class Dog;".toList = true ∧
    ∃ a, (brokenCrate.draft {}).render Library.builtin.render = .ok a ∧
      "public class Dog;".toList ∈ Source.statements a.code.toList := by
  obtain ⟨a, ha, hcode⟩ := brokenCrate.render_draft {}
  refine ⟨by decide, by decide, a, ha, ?_⟩
  rw [hcode]
  decide

end ContractGen
