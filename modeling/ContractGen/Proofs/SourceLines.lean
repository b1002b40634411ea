import ContractGen.Proofs.BlankLines

/-!
# Lines of source code

A text has lines in two ways. The lines of `Text.lines` end at line feeds. Up to blanks at their
ends they are the parts of the text between line feeds (`Layout.textLines_lines`), so the lines
with text of two texts in a row are found one text after the other (`Layout.textLines_append`).

The lines of C# end at any of five characters, `Source.isLineEnd`, and `Source.lines` are the parts
between these. All five are blanks, so trimming takes them from the end of a line, but not from its
middle. `Source.statements` are the lines of C# that no comment takes up.
-/

namespace ContractGen

namespace Text

theorem trimEnd_cons (c : Char) (cs : List Char) :
    trimEnd (c :: cs) = if trimEnd cs = [] then trimEnd [c] else c :: trimEnd cs := by
  by_cases h : cs.reverse.dropWhile isBlank = []
  · simp [trimEnd, List.dropWhile_append, h]
  · simp [trimEnd, List.dropWhile_append, h, -List.dropWhile_eq_nil_iff]

theorem trimEnd_cons_congr {a b : List Char} (h : trimEnd a = trimEnd b) (c : Char) :
    trimEnd (c :: a) = trimEnd (c :: b) := by
  rw [trimEnd_cons c a, trimEnd_cons c b, h]

/-- Up to blanks at their ends, lines are the parts between line feeds. There may be one part more,
which is blank: the one after the last line feed. -/
theorem map_trimEnd_splitOnP (cs : List Char) :
    (cs.splitOnP (· == '\n')).map trimEnd = (lines cs).map trimEnd ∨
      (cs.splitOnP (· == '\n')).map trimEnd = (lines cs).map trimEnd ++ [[]] := by
  -- a line that a line feed ends is a part, and so it is with a carriage return before that
  have hfeed : ∀ rest, ('\n' :: rest).splitOnP (· == '\n') = [] :: rest.splitOnP (· == '\n') :=
    fun rest => by simp [List.splitOnP_cons_eq_if_modifyHead]
  have hother : ∀ c rest, c ≠ '\n' → (c :: rest).splitOnP (· == '\n') =
      (rest.splitOnP (· == '\n')).modifyHead (c :: ·) :=
    fun c rest hc => by simp [List.splitOnP_cons_eq_if_modifyHead, hc]
  fun_induction lines cs with
  | case1 => exact .inr rfl
  | case2 rest ih =>
    rw [hfeed, List.map_cons, List.map_cons, List.cons_append]
    exact ih.imp (congrArg _) (congrArg _)
  | case3 rest ih =>
    have hreturn : trimEnd ['\r'] = trimEnd [] := by decide
    rw [hother _ _ (by decide), hfeed, List.modifyHead_cons, List.map_cons, List.map_cons, hreturn,
      List.cons_append]
    exact ih.imp (congrArg _) (congrArg _)
  | case4 c rest hc hr hlines ih =>
    obtain ⟨part, parts, hparts⟩ :=
      List.exists_cons_of_ne_nil (List.splitOnP_ne_nil (· == '\n') rest)
    rw [hother _ _ hc, hparts, List.modifyHead_cons]
    rw [hparts, hlines] at ih
    obtain ⟨hpart, rfl⟩ : trimEnd part = [] ∧ parts = [] := by simpa using ih
    exact .inl (congrArg (fun l => [l]) (trimEnd_cons_congr hpart c))
  | case5 c rest hc hr line more hlines ih =>
    obtain ⟨part, parts, hparts⟩ :=
      List.exists_cons_of_ne_nil (List.splitOnP_ne_nil (· == '\n') rest)
    rw [hother _ _ hc, hparts, List.modifyHead_cons]
    rw [hparts, hlines] at ih
    simp only [List.map_cons, List.cons_append, List.cons.injEq] at ih ⊢
    exact ih.imp (And.imp_left (trimEnd_cons_congr · c)) (And.imp_left (trimEnd_cons_congr · c))

end Text

namespace Layout

theorem textLines_lines (cs : List Char) :
    textLines (Text.lines cs) = textLines (cs.splitOnP (· == '\n')) := by
  rw [textLines, textLines]
  rcases Text.map_trimEnd_splitOnP cs with h | h
  · rw [h]
  · rw [h, List.filter_append]
    simp

/-- **A line feed parts the lines with text**: those before it and those after it are found
independently. -/
theorem textLines_append (a b : List Char) :
    textLines (Text.lines (a ++ '\n' :: b)) =
      textLines (Text.lines a) ++ textLines (Text.lines b) := by
  simp only [textLines_lines]
  rw [List.splitOnP_append_cons a b (by decide), textLines, List.map_append, List.filter_append]
  rfl

theorem textLines_tidy (code : String) :
    textLines (linesOf (tidy code)) = textLines (linesOf code) := by
  rw [linesOf_tidy, linesOf, ← textLines_tidyLines]
  split
  · rename_i hnone
    rw [hnone]
    rfl
  · rfl

end Layout

namespace Source

/-! ### Lines of C# -/

/-- Whether a character ends a line of C#. -/
def isLineEnd (c : Char) : Bool :=
  c == '\n' || c == '\r' || c == '\u0085' || c == '\u2028' || c == '\u2029'

/-- Whether a text stays on its line, since no character ends that. -/
def isOneLine (cs : List Char) : Bool := cs.all fun c => !isLineEnd c

/-- The lines of C#. A carriage return and a line feed in a row leave an empty line between. -/
def lines (code : List Char) : List (List Char) := code.splitOnP isLineEnd

/-- Whether a comment takes up a line, but for blanks at its start. -/
def isComment (line : List Char) : Bool := ['/', '/'].isPrefixOf (Text.trimStart line)

/-- The lines of C# that no comment takes up. -/
def statements (code : List Char) : List (List Char) := (lines code).filter fun l => !isComment l

theorem isBlank_of_isLineEnd {c : Char} (h : isLineEnd c = true) : Text.isBlank c = true := by
  simp only [isLineEnd, Bool.or_eq_true, beq_iff_eq] at h
  obtain (((rfl | rfl) | rfl) | rfl) | rfl := h <;> decide

end Source

end ContractGen
