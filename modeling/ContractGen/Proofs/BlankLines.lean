import ContractGen.Code.Layout
import Mathlib.Data.List.Chain
import Mathlib.Data.List.DropRight

/-!
# Blank lines of tidy code

`tidy` takes code apart into lines, drops blanks and lines, and puts the rest together again. The
three steps are looked at one by one.

* Trimming takes nothing but blanks away (`Text.head?_trimStart_trimEnd`).
* Lines that were closed by line feeds are found again (`Text.lines_closed`), since a trimmed line
  has no carriage return at its end.
* Of lines, `Layout.keep` drops blank ones only (`filter_keep`). What it does to the blank lines
  before a line with text depends on that line and on the last one before them, and on nothing else
  (`keep_gap`, `keep_append_text`). The lines that are left are `Neat`, and neat lines are left as
  they are.

So a second run does nothing, and `tidy_layout` says how often blank lines stand where.
-/

namespace ContractGen

namespace Text

variable {cs line rest : List Char} {c : Char}

/-! ### Trimming -/

theorem trimEnd_eq_nil_iff : trimEnd cs = [] ↔ cs.all isBlank = true := by
  rw [List.all_eq_true]
  exact List.rdropWhile_eq_nil_iff

theorem trimEnd_trimEnd (cs : List Char) : trimEnd (trimEnd cs) = trimEnd cs :=
  List.rdropWhile_idempotent isBlank cs

theorem mem_of_mem_trimEnd (h : c ∈ trimEnd cs) : c ∈ cs := by
  have hprefix : trimEnd cs <+: cs := List.rdropWhile_prefix isBlank cs
  exact hprefix.subset h

theorem getLast?_trimEnd (h : (trimEnd cs).getLast? = some c) : isBlank c = false := by
  have hne : trimEnd cs ≠ [] := by
    rintro hnil
    rw [hnil] at h
    cases h
  obtain rfl : (trimEnd cs).getLast hne = c := by
    rw [List.getLast?_eq_some_getLast hne] at h
    exact Option.some.inj h
  exact Bool.eq_false_iff.2 (List.rdropWhile_last_not isBlank cs hne)

theorem head?_trimStart_trimEnd (cs : List Char) :
    (trimStart (trimEnd cs)).head? = (trimStart cs).head? := by
  have hsplit : trimEnd cs ++ cs.rtakeWhile isBlank = cs := List.rdropWhile_append_rtakeWhile
  have hblank : (cs.rtakeWhile isBlank).dropWhile isBlank = [] :=
    List.dropWhile_eq_nil_iff.2 fun x hx => List.mem_rtakeWhile_imp hx
  have htrim : trimStart cs = if (trimStart (trimEnd cs)).isEmpty then [] else
      trimStart (trimEnd cs) ++ cs.rtakeWhile isBlank := by
    conv_lhs => rw [trimStart, ← hsplit, List.dropWhile_append, hblank]
    rfl
  rw [htrim]
  cases trimStart (trimEnd cs) <;> rfl

/-! ### Lines -/

theorem not_mem_of_mem_lines : ∀ line ∈ lines cs, '\n' ∉ line := by
  fun_induction lines cs with
  | case1 => simp
  | case2 rest ih => simpa using ih
  | case3 rest ih => simpa using ih
  | case4 c rest hc hr hlines ih => simpa [eq_comm] using hc
  | case5 c rest hc hr line more hlines ih =>
    rw [hlines] at ih
    intro l hl
    rcases List.mem_cons.1 hl with rfl | hl
    · have hline := ih line List.mem_cons_self
      simpa [hline, eq_comm] using hc
    · exact ih l (List.mem_cons_of_mem _ hl)

/-- A line ends at the first line feed, if there is no carriage return right before that. -/
theorem lines_append (hline : '\n' ∉ line) (hend : line.getLast? ≠ some '\r') :
    lines (line ++ '\n' :: rest) = line :: lines rest := by
  induction line with
  | nil => rw [List.nil_append, lines]
  | cons c line ih =>
    have hc : c ≠ '\n' := fun heq => hline (heq ▸ List.mem_cons_self)
    have hline' : '\n' ∉ line := fun hmem => hline (List.mem_cons_of_mem _ hmem)
    -- a carriage return at the front has another character of the line after it
    have hr : ∀ rest', c = '\r' → line ++ '\n' :: rest ≠ '\n' :: rest' := by
      rintro rest' rfl heq
      cases line with
      | nil => simp at hend
      | cons d line =>
        obtain ⟨rfl, -⟩ := List.cons.inj heq
        exact hline' List.mem_cons_self
    have hend' : line.getLast? ≠ some '\r' := by
      intro hlast
      rw [List.getLast?_cons, hlast] at hend
      exact hend rfl
    rw [List.cons_append, lines.eq_4 c _ hc hr, ih hline' hend']

/-- The text of lines that are each closed by a line feed. -/
def closed (ls : List (List Char)) : List Char := ls.flatMap fun line => line ++ ['\n']

theorem joinWith_eq_closed {ls : List (List Char)} (h : ls ≠ []) :
    joinWith ['\n'] ls ++ ['\n'] = closed ls := by
  induction ls with
  | nil => exact absurd rfl h
  | cons line ls ih =>
    cases ls with
    | nil => simp [joinWith, closed]
    | cons next ls => simpa [joinWith, closed] using ih (by simp)

theorem lines_closed {ls : List (List Char)}
    (h : ∀ line ∈ ls, '\n' ∉ line ∧ line.getLast? ≠ some '\r') : lines (closed ls) = ls := by
  induction ls with
  | nil => rfl
  | cons line ls ih =>
    obtain ⟨hline, hls⟩ := List.forall_mem_cons.1 h
    have hclosed : closed (line :: ls) = line ++ '\n' :: closed ls := by simp [closed]
    rw [hclosed, lines_append hline.1 hline.2, ih hls]

end Text

namespace Layout

open Text (lines trimEnd trimStart)

variable {last : Option (List Char)} {line a b : List Char} {ls pre rest : List (List Char)}

/-! ### Lines that are kept -/

/-- Whether a line has nothing but blanks. -/
def isBlankLine (line : List Char) : Bool := line.all Text.isBlank

/-- Whether the last character of a line opens a block, blanks apart. -/
def opensBlock (line : List Char) : Bool := (trimEnd line).getLast? == some '\x7b'

/-- Whether the first character of a line closes a block, blanks apart. -/
def closesBlock (line : List Char) : Bool := (trimStart line).head? == some '\x7d'

/-- The lines with text, without blanks at their ends. -/
def textLines (ls : List (List Char)) : List (List Char) :=
  (ls.map trimEnd).filter fun line => !line.isEmpty

theorem closesAfter_blank (rest : List (List Char)) : closesAfter ([] :: rest) = closesAfter rest :=
  rfl

theorem closesAfter_text (h : line ≠ []) (rest : List (List Char)) :
    closesAfter (line :: rest) = closesBlock line := by
  simp [closesAfter, h, closesBlock]

/-- Nothing after the first line with text matters. -/
theorem closesAfter_append (h : a ≠ []) (pre rest rest' : List (List Char)) :
    closesAfter (pre ++ a :: rest) = closesAfter (pre ++ a :: rest') := by
  induction pre with
  | nil => rw [List.nil_append, List.nil_append, closesAfter_text h, closesAfter_text h]
  | cons line pre ih =>
    by_cases hline : line = []
    · subst hline
      simpa [closesAfter_blank] using ih
    · rw [List.cons_append, List.cons_append, closesAfter_text hline, closesAfter_text hline]

theorem exists_text_of_closesAfter (h : closesAfter rest = false) : ∃ line ∈ rest, line ≠ [] := by
  by_contra hno
  push Not at hno
  have hfind : rest.find? (fun line => !line.isEmpty) = none :=
    List.find?_eq_none.2 fun line hline => by simp [hno line hline]
  simp [closesAfter, hfind] at h

theorem keep_text (h : line ≠ []) (last : Option (List Char)) (rest : List (List Char)) :
    keep last (line :: rest) = line :: keep (some line) rest := by
  simp [keep, h]

theorem keep_drop (h : opensBefore last = true ∨ closesAfter rest = true) :
    keep last ([] :: rest) = keep last rest := by
  rcases h with h | h <;> simp [keep, h]

theorem keep_stay (hopen : opensBefore last = false) (hclose : closesAfter rest = false) :
    keep last ([] :: rest) = [] :: keep (some []) rest := by
  simp [keep, hopen, hclose]

/-- Lines are dropped and not changed, and none with text is dropped. -/
theorem filter_keep (last : Option (List Char)) (ls : List (List Char)) :
    (keep last ls).filter (fun line => !line.isEmpty) = ls.filter fun line => !line.isEmpty := by
  fun_induction keep last ls with
  | case1 => rfl
  | case2 last line rest hdrop ih =>
    have hline : line.isEmpty = true := (Bool.and_eq_true_iff.1 hdrop).1
    simp [ih, hline]
  | case3 last line rest hkeep ih => simp [List.filter_cons, ih]

theorem mem_of_mem_keep (h : line ∈ keep last ls) : line ∈ ls := by
  fun_induction keep last ls with
  | case1 => exact h
  | case2 last line' rest hdrop ih => exact List.mem_cons_of_mem _ (ih h)
  | case3 last line' rest hkeep ih =>
    rcases List.mem_cons.1 h with rfl | h
    · exact List.mem_cons_self
    · exact List.mem_cons_of_mem _ (ih h)

/-- **What becomes of the blank lines before a line with text.** -/
theorem keep_gap (hb : b ≠ []) (last : Option (List Char)) (n : Nat) (post : List (List Char)) :
    keep last (List.replicate n [] ++ b :: post) =
      (if 0 < n ∧ opensBefore last = false ∧ closesBlock b = false then [[]] else []) ++
        b :: keep (some b) post := by
  induction n generalizing last with
  | zero => simp [keep_text hb]
  | succ n ih =>
    have hcloses : closesAfter (List.replicate n [] ++ b :: post) = closesBlock b := by
      clear ih
      induction n with
      | zero => exact closesAfter_text hb post
      | succ n ih => rw [List.replicate_succ, List.cons_append, closesAfter_blank, ih]
    rw [List.replicate_succ, List.cons_append]
    by_cases hopen : opensBefore last = true
    · rw [keep_drop (.inl hopen), ih]
      simp [hopen]
    · by_cases hclose : closesBlock b = true
      · rw [keep_drop (.inr (hcloses.trans hclose)), ih]
        simp [hclose]
      · -- the first of them stays, and is why the others go
        have hblank : opensBefore (some []) = true := rfl
        rw [keep_stay (by simpa using hopen) (by simpa [hcloses] using hclose), ih]
        simp [hopen, hclose, hblank]

/-- What is kept before a line with text does not depend on what comes after it. -/
theorem keep_append_text (ha : a ≠ []) (last : Option (List Char)) (pre : List (List Char)) :
    ∃ kept, (∀ rest, keep last (pre ++ a :: rest) = kept ++ a :: keep (some a) rest) ∧
      kept.filter (fun line => !line.isEmpty) = pre.filter fun line => !line.isEmpty := by
  induction pre generalizing last with
  | nil => exact ⟨[], fun rest => keep_text ha last rest, rfl⟩
  | cons line pre ih =>
    by_cases hline : line = []
    · subst hline
      have hcloses : ∀ rest, closesAfter (pre ++ a :: rest) = closesAfter (pre ++ [a]) :=
        fun rest => closesAfter_append ha pre rest []
      by_cases hdrop : opensBefore last = true ∨ closesAfter (pre ++ [a]) = true
      · obtain ⟨kept, hkept, htexts⟩ := ih last
        refine ⟨kept, fun rest => ?_, by simpa using htexts⟩
        rw [List.cons_append, keep_drop (by rwa [hcloses]), hkept]
      · obtain ⟨hopen, hclose⟩ := by simpa using hdrop
        obtain ⟨kept, hkept, htexts⟩ := ih (some [])
        refine ⟨[] :: kept, fun rest => ?_, by simpa using htexts⟩
        rw [List.cons_append, keep_stay hopen (by rwa [hcloses]), hkept, List.cons_append]
    · obtain ⟨kept, hkept, htexts⟩ := ih (some line)
      refine ⟨line :: kept, fun rest => ?_, by simp [hline, htexts]⟩
      rw [List.cons_append, keep_text hline, hkept, List.cons_append]

/-! ### Neat lines -/

/-- Two lines in a row are spaced well: a blank line follows a line with text that opens no block,
and a line that closes a block follows no blank line. -/
def Spaced (a b : List Char) : Prop :=
  (b = [] → opensBefore (some a) = false) ∧ (a = [] → closesBlock b = false)

/-- Lines with no blank line at the start and at the end, spaced well. -/
structure Neat (ls : List (List Char)) : Prop where
  /-- The first line is not blank. -/
  first : ls.head? ≠ some []
  /-- The last line is not blank. -/
  last : ls.getLast? ≠ some []
  /-- Neighbours are spaced well. -/
  spaced : ls.IsChain Spaced

/-- Kept lines are spaced well, also from the line before them. -/
theorem keep_spaced (hlast : last = some [] → closesAfter ls = false) :
    (∀ line, (keep last ls).head? = some line → line = [] → opensBefore last = false) ∧
      (last.toList ++ keep last ls).IsChain Spaced := by
  fun_induction keep last ls with
  | case1 last =>
    cases last with
    | none => exact ⟨by simp, .nil⟩
    | some l => exact ⟨by simp, .singleton l⟩
  | case2 last line rest hdrop ih =>
    obtain rfl : line = [] := List.isEmpty_iff.1 (Bool.and_eq_true_iff.1 hdrop).1
    exact ih hlast
  | case3 last line rest hkeep ih =>
    have hstay : line = [] → opensBefore last = false ∧ closesAfter rest = false := by
      rintro rfl
      simpa using hkeep
    obtain ⟨-, hchain⟩ := ih fun heq => (hstay (Option.some.inj heq)).2
    refine ⟨fun l hl hempty => ?_, ?_⟩
    · obtain rfl : line = l := by simpa using hl
      exact (hstay hempty).1
    · cases last with
      | none => exact hchain
      | some l =>
        refine .cons_cons ⟨fun hempty => (hstay hempty).1, fun hl => ?_⟩ hchain
        -- a blank line was kept because the next line with text closes no block
        have hcloses := hlast (by rw [hl])
        by_cases hline : line = []
        · have hopen := (hstay hline).1
          simp [hl, opensBefore] at hopen
        · rwa [closesAfter_text hline] at hcloses

theorem getLast?_keep (last : Option (List Char)) (ls : List (List Char)) :
    (keep last ls).getLast? ≠ some [] := by
  fun_induction keep last ls with
  | case1 => simp
  | case2 last line rest hdrop ih => exact ih
  | case3 last line rest hkeep ih =>
    rw [List.getLast?_cons]
    cases hrest : (keep (some line) rest).getLast? with
    | some l => simpa [hrest] using ih
    | none =>
      rintro heq
      obtain rfl : line = [] := by simpa using heq
      have hclose : closesAfter rest = false := by
        have hboth : opensBefore last = false ∧ closesAfter rest = false := by simpa using hkeep
        exact hboth.2
      -- some line with text comes after a blank line that was kept, and is kept too
      obtain ⟨text, htext, hne⟩ := exists_text_of_closesAfter hclose
      have hkept : text ∈ (keep (some []) rest).filter fun line => !line.isEmpty := by
        rw [filter_keep]
        exact List.mem_filter.2 ⟨htext, by simpa using hne⟩
      rw [List.getLast?_eq_none_iff.1 hrest] at hkept
      cases hkept

/-- **Kept lines are neat.** -/
theorem neat_keep (ls : List (List Char)) : Neat (keep none ls) := by
  have hstart : none = some ([] : List Char) → closesAfter ls = false := by simp
  obtain ⟨hfirst, hchain⟩ := keep_spaced hstart
  refine ⟨fun heq => ?_, getLast?_keep none ls, hchain⟩
  have hopen := hfirst [] heq rfl
  simp [opensBefore] at hopen

theorem keep_of_spaced (hfirst : ls.head? = some [] → opensBefore last = false)
    (hlast : ls.getLast? ≠ some []) (hchain : ls.IsChain Spaced) : keep last ls = ls := by
  induction ls generalizing last with
  | nil => rfl
  | cons line rest ih =>
    have hrest : keep (some line) rest = rest := by
      cases rest with
      | nil => rfl
      | cons next rest =>
        obtain ⟨hspaced, hchain⟩ := List.isChain_cons_cons.1 hchain
        refine ih (fun heq => hspaced.1 (by simpa using heq)) ?_ hchain
        rwa [List.getLast?_cons_cons] at hlast
    by_cases hline : line = []
    · subst hline
      cases rest with
      | nil => simp at hlast
      | cons next rest =>
        obtain ⟨hspaced, -⟩ := List.isChain_cons_cons.1 hchain
        have hnext : next ≠ [] := fun heq => by simpa [opensBefore] using hspaced.1 heq
        rw [keep_stay (hfirst rfl) (by rw [closesAfter_text hnext, hspaced.2 rfl]), hrest]
    · rw [keep_text hline, hrest]

theorem Neat.keep_eq (h : Neat ls) : keep none ls = ls :=
  keep_of_spaced (fun heq => absurd heq h.first) h.last h.spaced

/-! ### Tidy code -/

/-- The lines of code. -/
def linesOf (code : String) : List (List Char) := lines code.toList

theorem isBlankLine_eq_false_iff : isBlankLine line = false ↔ trimEnd line ≠ [] := by
  rw [ne_eq, Text.trimEnd_eq_nil_iff, isBlankLine, Bool.not_eq_true]

theorem closesBlock_trimEnd (line : List Char) : closesBlock (trimEnd line) = closesBlock line := by
  rw [closesBlock, Text.head?_trimStart_trimEnd, closesBlock]

theorem of_mem_tidyLines {cs : List Char} (h : line ∈ tidyLines cs) :
    '\n' ∉ line ∧ trimEnd line = line := by
  obtain ⟨l, hl, rfl⟩ := List.mem_map.1 (mem_of_mem_keep h)
  exact ⟨fun hmem => Text.not_mem_of_mem_lines l hl (Text.mem_of_mem_trimEnd hmem),
    Text.trimEnd_trimEnd l⟩

theorem map_trimEnd_eq_self (h : ∀ line ∈ ls, trimEnd line = line) : ls.map trimEnd = ls := by
  conv_rhs => rw [← List.map_id ls]
  exact List.map_congr_left h

theorem textLines_of_trimmed (h : ∀ line ∈ ls, trimEnd line = line) :
    textLines ls = ls.filter fun line => !line.isEmpty := by
  rw [textLines, map_trimEnd_eq_self h]

theorem textLines_tidyLines (cs : List Char) : textLines (tidyLines cs) = textLines (lines cs) := by
  rw [textLines_of_trimmed fun line hline => (of_mem_tidyLines hline).2, tidyLines, filter_keep,
    textLines]

/-- The lines of tidy code are those of the final layout. Without any there is a blank one, since
the line feed at the end is always there. -/
theorem linesOf_tidy (code : String) :
    linesOf (tidy code) = if tidyLines code.toList = [] then [[]] else tidyLines code.toList := by
  rw [linesOf, tidy, String.toList_ofList]
  split
  · rename_i hnone
    rw [hnone]
    rfl
  · rename_i hsome
    rw [Text.joinWith_eq_closed hsome]
    refine Text.lines_closed fun line hline => ?_
    obtain ⟨hfeed, htrim⟩ := of_mem_tidyLines hline
    refine ⟨hfeed, fun hlast => ?_⟩
    rw [← htrim] at hlast
    have hblank := Text.getLast?_trimEnd hlast
    exact absurd hblank (by decide)

theorem tidyLines_tidy (code : String) :
    tidyLines (tidy code).toList = tidyLines code.toList := by
  have hlines := linesOf_tidy code
  rw [linesOf] at hlines
  rw [tidyLines, hlines]
  split
  · rename_i hnone
    rw [hnone]
    rfl
  · rw [map_trimEnd_eq_self fun line hline => (of_mem_tidyLines hline).2]
    exact (neat_keep _).keep_eq

theorem spaced_tidyLines (cs : List Char) : (tidyLines cs).IsChain fun a b =>
    (isBlankLine b = true → isBlankLine a = false ∧ opensBlock a = false) ∧
      (isBlankLine a = true → closesBlock b = false) := by
  -- a line without blanks at its end is blank just if it is empty
  have hempty : ∀ line ∈ tidyLines cs, isBlankLine line = true → line = [] := by
    intro line hline hblank
    rw [← (of_mem_tidyLines hline).2, Text.trimEnd_eq_nil_iff]
    exact hblank
  refine (neat_keep _).spaced.imp_of_mem_imp fun a b ha hb hspaced => ⟨fun hblank => ?_, ?_⟩
  · have hopen := hspaced.1 (hempty b hb hblank)
    obtain ⟨htext, hlast⟩ : a ≠ [] ∧ ¬ a.getLast? = some '\x7b' := by
      simpa [opensBefore] using hopen
    have htrim := (of_mem_tidyLines ha).2
    exact ⟨isBlankLine_eq_false_iff.2 (by rwa [htrim]), by simpa [opensBlock, htrim] using hlast⟩
  · exact fun hblank => hspaced.2 (hempty a ha hblank)

/-- **Between two lines with text**, and with nothing but blank lines between them, the final layout
has a blank line just if there was one, the first line opens no block and the second closes none. -/
theorem tidyLines_gap {cs : List Char} {pre gap post : List (List Char)}
    (hlines : lines cs = pre ++ a :: (gap ++ b :: post)) (ha : isBlankLine a = false)
    (hb : isBlankLine b = false) (hgap : ∀ line ∈ gap, isBlankLine line = true) :
    ∃ pre' post', textLines pre' = textLines pre ∧ textLines post' = textLines post ∧
      tidyLines cs = pre' ++ trimEnd a ::
        ((if gap ≠ [] ∧ opensBlock a = false ∧ closesBlock b = false then [[]] else []) ++
          trimEnd b :: post') := by
  have ha' : trimEnd a ≠ [] := isBlankLine_eq_false_iff.1 ha
  have hb' : trimEnd b ≠ [] := isBlankLine_eq_false_iff.1 hb
  have hblank : gap.map trimEnd = List.replicate gap.length [] := by
    refine List.eq_replicate_iff.2 ⟨List.length_map _, fun line hline => ?_⟩
    obtain ⟨l, hl, rfl⟩ := List.mem_map.1 hline
    exact Text.trimEnd_eq_nil_iff.2 (hgap l hl)
  obtain ⟨kept, hkept, htexts⟩ := keep_append_text ha' none (pre.map trimEnd)
  have hopens : opensBefore (some (trimEnd a)) = opensBlock a := by
    simp [opensBefore, opensBlock, ha']
  have htidy : tidyLines cs = kept ++ trimEnd a ::
      ((if gap ≠ [] ∧ opensBlock a = false ∧ closesBlock b = false then [[]] else []) ++
        trimEnd b :: keep (some (trimEnd b)) (post.map trimEnd)) := by
    rw [tidyLines, hlines, List.map_append, List.map_cons, List.map_append, List.map_cons, hkept,
      hblank, keep_gap hb', hopens, closesBlock_trimEnd]
    simp only [List.length_pos_iff]
  -- what is kept around them was trimmed before
  have htrimmed : ∀ line ∈ tidyLines cs, trimEnd line = line :=
    fun line hline => (of_mem_tidyLines hline).2
  rw [htidy] at htrimmed
  refine ⟨kept, keep (some (trimEnd b)) (post.map trimEnd), ?_, ?_, htidy⟩
  · rw [textLines_of_trimmed fun line hline => htrimmed line (List.mem_append_left _ hline), htexts,
      textLines]
  · rw [textLines_of_trimmed fun line hline => htrimmed line (by simp [hline]), filter_keep,
      textLines]

end Layout

open Layout Text in
/-- **The layout of tidy code.** The lines with text are those of the code before, without blanks at
their ends. The last character is a line feed, and no line ends with a blank. Unless the line feed
is all, neither the first nor the last line is blank, no blank line follows another one or a line
that opens a block, and none comes before a line that closes one. Between two lines with text there
is one blank line just if there were any, the first opens no block and the second closes none. Tidy
code is left as it is. -/
theorem tidy_layout (code : String) :
    textLines (linesOf (tidy code)) = textLines (linesOf code) ∧
    ((tidy code).toList.getLast? = some '\n' ∧
      (∀ line ∈ linesOf (tidy code), trimEnd line = line) ∧
      (tidy code = "\n" ∨
        (∀ line, (linesOf (tidy code)).head? = some line → isBlankLine line = false) ∧
        (∀ line, (linesOf (tidy code)).getLast? = some line → isBlankLine line = false) ∧
        (linesOf (tidy code)).IsChain fun a b =>
          (isBlankLine b = true → isBlankLine a = false ∧ opensBlock a = false) ∧
          (isBlankLine a = true → closesBlock b = false))) ∧
    (∀ pre a gap b post, linesOf code = pre ++ a :: (gap ++ b :: post) →
      isBlankLine a = false → isBlankLine b = false → (∀ line ∈ gap, isBlankLine line = true) →
      ∃ pre' post', textLines pre' = textLines pre ∧ textLines post' = textLines post ∧
        linesOf (tidy code) = pre' ++ trimEnd a ::
          ((if gap ≠ [] ∧ opensBlock a = false ∧ closesBlock b = false then [[]] else []) ++
            trimEnd b :: post')) ∧
    tidy (tidy code) = tidy code := by
  have hlines := linesOf_tidy code
  refine ⟨?texts, ⟨?newline, ?trimmed, ?neat⟩, ?gaps, ?again⟩
  case texts =>
    rw [hlines, linesOf, ← textLines_tidyLines]
    split
    · rename_i hnone
      rw [hnone]
      rfl
    · rfl
  case newline => simp [tidy]
  case trimmed =>
    rw [hlines]
    split
    · simp [trimEnd]
    · exact fun line hline => (of_mem_tidyLines hline).2
  case neat =>
    by_cases hnone : tidyLines code.toList = []
    · refine .inl ?_
      rw [tidy, hnone]
      rfl
    · rw [if_neg hnone] at hlines
      have hneat : Neat (tidyLines code.toList) := neat_keep _
      have htext : ∀ line ∈ tidyLines code.toList, line ≠ [] → isBlankLine line = false := by
        intro line hline hne
        exact isBlankLine_eq_false_iff.2 (by rwa [(of_mem_tidyLines hline).2])
      rw [hlines]
      refine .inr ⟨fun line hfirst => ?_, fun line hlast => ?_, spaced_tidyLines code.toList⟩
      · refine htext line (List.mem_of_head? hfirst) ?_
        rintro rfl
        exact hneat.first hfirst
      · refine htext line (List.mem_of_getLast? hlast) ?_
        rintro rfl
        exact hneat.last hlast
  case gaps =>
    intro pre a gap b post hcode ha hb hgap
    obtain ⟨pre', post', hpre, hpost, htidy⟩ := tidyLines_gap hcode ha hb hgap
    refine ⟨pre', post', hpre, hpost, ?_⟩
    rw [hlines, if_neg (by simp [htidy]), htidy]
  case again => rw [tidy, tidyLines_tidy, tidy]

/-- Blank lines of all kinds: at both ends, with blanks or a carriage return in them, and where
blocks open and close. -/
example : tidy " \n\nclass A \r\n\x7b\r\n\n  int X;\n \t\n\r\n  int Y; \x7b \x7d\n\n \x7d\n\n" =
    "class A\n\x7b\n  int X;\n\n  int Y; \x7b \x7d\n \x7d\n" := by decide

end ContractGen
