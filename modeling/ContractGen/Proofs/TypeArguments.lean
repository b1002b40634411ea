import ContractGen.Proofs.LegalNames
import Mathlib.Data.List.DropRight

/-!
# Reading type arguments

Types in a row are written with commas between them, and such commas stand inside of a type as
well, wherever it is a union in place. `splitTop` cuts a text at the commas that no angle bracket
encloses, and `argumentTexts` gives the types back that were written in a row
(`argumentTexts_argumentsText`).

What `splitTop` needs of a type is that it is passed as one piece, whatever brackets are open before
it and whatever text comes after it (`Whole`). A text without commas and brackets is passed so, and
so is one in brackets, if it is passed inside of them (`Inner`). There a comma is a character like
any other, so the texts of references are whole by induction on the reference
(`TypeRef.isArgument_text`). All they need is that names of types are legal.
-/

namespace ContractGen

open Identifier (isLegal isNameChar)

namespace Text

/-! ### Pieces of a text -/

/-- Put characters in front of the first piece. -/
def attach (t : List Char) : List (List Char) → List (List Char)
  | [] => [t]
  | piece :: pieces => (t ++ piece) :: pieces

/-- The pieces of a text between the commas outside of all angle brackets, where `depth` of these
are open before the text. -/
def splitTop : Nat → List Char → List (List Char)
  | _, [] => [[]]
  | depth, c :: rest =>
    if c = '<' then attach [c] (splitTop (depth + 1) rest)
    else if c = '>' then attach [c] (splitTop (depth - 1) rest)
    else if c = ',' ∧ depth = 0 then [] :: splitTop depth rest
    else attach [c] (splitTop depth rest)

variable {s t : List Char} {pieces : List (List Char)}

theorem attach_append (s t : List Char) (pieces : List (List Char)) :
    attach (s ++ t) pieces = attach s (attach t pieces) := by
  cases pieces <;> simp [attach]

theorem splitTop_ne_nil (depth : Nat) (t : List Char) : splitTop depth t ≠ [] := by
  have hattach : ∀ s pieces, attach s pieces ≠ [] := by
    intro s pieces
    cases pieces <;> simp [attach]
  cases t with
  | nil => simp [splitTop]
  | cons c rest =>
    rw [splitTop]
    split_ifs
    · exact hattach _ _
    · exact hattach _ _
    · simp
    · exact hattach _ _

theorem attach_nil (h : pieces ≠ []) : attach [] pieces = pieces := by
  cases pieces with
  | nil => exact absurd rfl h
  | cons piece pieces => rfl

/-- The text is passed as one piece, and leaves as many brackets open as there were. -/
def Whole (t : List Char) : Prop :=
  ∀ depth rest, splitTop depth (t ++ rest) = attach t (splitTop depth rest)

/-- The text is passed as one piece inside of brackets. -/
def Inner (t : List Char) : Prop :=
  ∀ depth rest, splitTop (depth + 1) (t ++ rest) = attach t (splitTop (depth + 1) rest)

theorem Whole.inner (h : Whole t) : Inner t := fun depth rest => h (depth + 1) rest

theorem whole_nil : Whole [] := fun depth rest => (attach_nil (splitTop_ne_nil depth rest)).symm

theorem Whole.append (hs : Whole s) (ht : Whole t) : Whole (s ++ t) := by
  intro depth rest
  rw [List.append_assoc, hs, ht, attach_append]

theorem Inner.append (hs : Inner s) (ht : Inner t) : Inner (s ++ t) := by
  intro depth rest
  rw [List.append_assoc, hs, ht, attach_append]

theorem inner_comma : Inner [','] := by
  intro depth rest
  simp [splitTop]

theorem Inner.brackets (h : Inner t) : Whole ('<' :: t ++ ['>']) := by
  intro depth rest
  calc splitTop depth ('<' :: t ++ ['>'] ++ rest)
      = attach ['<'] (splitTop (depth + 1) (t ++ '>' :: rest)) := by simp [splitTop]
    _ = attach ['<'] (attach t (splitTop (depth + 1) ('>' :: rest))) := by rw [h]
    _ = attach ['<'] (attach t (attach ['>'] (splitTop depth rest))) := by simp [splitTop]
    _ = attach ('<' :: t ++ ['>']) (splitTop depth rest) := by
      rw [← attach_append, ← attach_append]
      rfl

/-! ### Characters of names -/

/-- Whether a character is no blank and has no meaning in the text of a type. -/
def isPlain (c : Char) : Bool := !(isBlank c || c == ',' || c == '<' || c == '>' || c == '?')

theorem isBlank_of_isPlain {c : Char} (h : isPlain c = true) : isBlank c = false := by
  simp only [isPlain, Bool.not_eq_true', Bool.or_eq_false_iff] at h
  exact h.1.1.1.1

theorem whole_of_isPlain (h : ∀ c ∈ t, isPlain c = true) : Whole t := by
  induction t with
  | nil => exact whole_nil
  | cons c t ih =>
    have hc : Whole [c] := by
      obtain ⟨⟨⟨⟨-, hcomma⟩, hopen⟩, hclose⟩, -⟩ := by
        simpa [isPlain] using h c List.mem_cons_self
      intro depth rest
      simp [splitTop, hcomma, hopen, hclose]
    exact hc.append (ih fun d hd => h d (List.mem_cons_of_mem _ hd))

/-- The code points of all ranges, one by one. -/
def Ranges.codes (ranges : Ranges) : List Nat :=
  ranges.flatMap fun range => List.range' range.1 (range.2 + 1 - range.1)

theorem Ranges.mem_codes {ranges : Ranges} {n : Nat} (h : ranges.has n = true) :
    n ∈ ranges.codes := by
  induction ranges with
  | nil => cases h
  | cons range ranges ih =>
    obtain ⟨lo, hi⟩ := range
    rw [has] at h
    split_ifs at h with hlow
    rw [codes, List.flatMap_cons, List.mem_append, List.mem_range'_1]
    rcases Bool.or_eq_true_iff.1 h with hhigh | hrest
    · have hhigh' : n ≤ hi := of_decide_eq_true hhigh
      exact .inl ⟨Nat.not_lt.1 hlow, by omega⟩
    · exact .inr (ih hrest)

/-- Blanks are in none of the tables of letters and numbers. -/
theorem isBlank_of_isNameChar {c : Char} (h : isNameChar c = true) : isBlank c = false := by
  have htables : (blankRanges.codes.all fun n => !isNameChar (Char.ofNat n)) = true := by
    decide +kernel
  by_contra hc
  rw [Bool.not_eq_false] at hc
  have hcode := Ranges.mem_codes hc
  have hno := List.all_eq_true.1 htables _ hcode
  rw [Char.ofNat_toNat, h] at hno
  cases hno

theorem isPlain_of_isNameChar {c : Char} (h : isNameChar c = true) : isPlain c = true := by
  have hne : ∀ d, isNameChar d = false → (c == d) = false := by
    intro d hd
    rw [beq_eq_false_iff_ne]
    rintro rfl
    rw [h] at hd
    cases hd
  rw [isPlain, isBlank_of_isNameChar h, hne ',' (by decide), hne '<' (by decide),
    hne '>' (by decide), hne '?' (by decide)]
  rfl

/-! ### Trimming -/

theorem trim_of_isPlain (h : ∀ c ∈ t, isPlain c = true) : trim t = t := by
  have hstart : trimStart t = t := by
    cases t with
    | nil => rfl
    | cons c t => simp [trimStart, isBlank_of_isPlain (h c List.mem_cons_self)]
  have hend : trimEnd t = t := by
    refine List.rdropWhile_eq_self_iff.2 fun hne => ?_
    rw [isBlank_of_isPlain (h _ (List.getLast_mem hne))]
    exact Bool.false_ne_true
  rw [trim, hstart, hend]

theorem trim_of_ends {first last : Char} (hfirst : isBlank first = false)
    (hlast : isBlank last = false) (mid : List Char) :
    trim (first :: mid ++ [last]) = first :: mid ++ [last] := by
  simp [trim, trimStart, trimEnd, hfirst, hlast]

/-- A blank before a text is not seen once its pieces are trimmed. -/
theorem map_trim_attach_blank {c : Char} (hc : isBlank c = true) (h : pieces ≠ []) :
    (attach [c] pieces).map trim = pieces.map trim := by
  cases pieces with
  | nil => exact absurd rfl h
  | cons piece pieces => simp [attach, trim, trimStart, hc]

end Text

open Text (splitTop attach Whole Inner trim)

/-! ### Arguments -/

/-- What stands between the commas of a row of type arguments. -/
def argumentTexts (text : String) : List String :=
  (splitTop 0 text.toList).map fun piece => String.ofList (trim piece)

/-- A text that can stand in a row of type arguments and be told from the others. -/
structure IsArgument (text : String) : Prop where
  /-- It has no comma outside of brackets, and its brackets are balanced. -/
  whole : Whole text.toList
  /-- It has no blanks at its ends. -/
  trimmed : trim text.toList = text.toList

theorem isArgument_of_isPlain {text : String} (h : ∀ c ∈ text.toList, Text.isPlain c = true) :
    IsArgument text :=
  ⟨Text.whole_of_isPlain h, Text.trim_of_isPlain h⟩

/-- **Type arguments are read back.** -/
theorem argumentTexts_argumentsText {types : List String} (hne : types ≠ [])
    (h : ∀ text ∈ types, IsArgument text) : argumentTexts (argumentsText types) = types := by
  induction types with
  | nil => exact absurd rfl hne
  | cons text types ih =>
    obtain ⟨htext, htypes⟩ := List.forall_mem_cons.1 h
    cases types with
    | nil =>
      have hsplit := htext.whole 0 []
      rw [List.append_nil] at hsplit
      simp [argumentTexts, argumentsText, hsplit, splitTop, attach, htext.trimmed]
    | cons next types =>
      have hrest := ih (by simp) htypes
      -- the comma ends the first piece, and the blank after it belongs to the next one
      have hsplit : splitTop 0 (argumentsText (text :: next :: types)).toList =
          text.toList :: attach [' '] (splitTop 0 (argumentsText (next :: types)).toList) := by
        rw [argumentsText, String.intercalate_cons_cons, String.toList_append,
          String.toList_append, List.append_assoc, htext.whole]
        simp [splitTop, attach, argumentsText]
      have htrim := Text.map_trim_attach_blank (c := ' ') (by decide)
        (Text.splitTop_ne_nil 0 (argumentsText (next :: types)).toList)
      have hpieces := congrArg (List.map String.ofList) htrim
      rw [List.map_map, List.map_map] at hpieces
      rw [argumentTexts, hsplit, List.map_cons, htext.trimmed, String.ofList_toList]
      exact congrArg (text :: ·) (hpieces.trans hrest)

example : argumentTexts "Disk, OneOf<int, OneOf<Disk, string>>, Disk" =
    ["Disk", "OneOf<int, OneOf<Disk, string>>", "Disk"] := by decide

theorem inner_argumentsText {types : List String} (h : ∀ text ∈ types, IsArgument text) :
    Inner (argumentsText types).toList := by
  have hblank : Whole [' '] := by
    intro depth rest
    simp [splitTop]
  induction types with
  | nil => simpa [argumentsText] using Text.whole_nil.inner
  | cons text types ih =>
    obtain ⟨htext, htypes⟩ := List.forall_mem_cons.1 h
    cases types with
    | nil => simpa [argumentsText] using htext.whole.inner
    | cons next types =>
      have hall := (htext.whole.inner.append (Text.inner_comma.append hblank.inner)).append
        (ih htypes)
      simpa [argumentsText] using hall

/-! ### References -/

namespace Builtin

/-- The names of all built-in types. -/
def names : List String := ["System.DateTimeOffset", "System.DateTime", "System.TimeSpan",
  "System.Guid", "System.Uri", "byte[]", "string", "long", "int", "decimal", "float", "double",
  "bool", "object"]

theorem name_mem_names (type : Schema.Primitive) (format : Option String) :
    (ofPrimitive type format).name ∈ names := by
  cases type with
  | string =>
    simp only [ofPrimitive]
    unfold ofTextFormat
    split <;> decide
  | integer => simp only [ofPrimitive]; split <;> decide
  | number =>
    simp only [ofPrimitive]
    split
    · decide
    · split <;> decide
  | boolean => simp only [ofPrimitive]; decide
  | any => simp only [ofPrimitive]; decide

theorem isPlain_of_mem_names {name : String} (h : name ∈ names) :
    name ≠ "" ∧ ∀ c ∈ name.toList, Text.isPlain c = true := by
  have hall : (names.all fun name => name ≠ "" && name.toList.all Text.isPlain) = true := by
    decide
  simpa using List.all_eq_true.1 hall name h

end Builtin

theorem isPlain_of_isLegal {name : String} (h : isLegal name = true) :
    ∀ c ∈ name.toList, Text.isPlain c = true := by
  rw [isLegal] at h
  generalize name.toList = cs at h
  cases cs with
  | nil => cases h
  | cons c cs =>
    simp only [Identifier.isLegalChars, Bool.and_eq_true, Bool.or_eq_true, beq_iff_eq] at h
    obtain ⟨hfirst, hrest⟩ := h
    have hc : isNameChar c = true := by
      rcases hfirst with rfl | hletter
      · decide
      · simp [isNameChar, Text.isAlphanumeric, hletter]
    intro d hd
    refine Text.isPlain_of_isNameChar ?_
    rcases List.mem_cons.1 hd with rfl | hd
    · exact hc
    · exact List.all_eq_true.1 hrest d hd

theorem isArgument_generic (name : String) {c : Char} {cs : List Char}
    (hname : name.toList = c :: cs) (hplain : ∀ d ∈ name.toList, Text.isPlain d = true)
    {arguments : String} (h : Inner arguments.toList) :
    IsArgument (name ++ "<" ++ arguments ++ ">") := by
  have htext : (name ++ "<" ++ arguments ++ ">").toList =
      name.toList ++ ('<' :: arguments.toList ++ ['>']) := by simp
  constructor
  · rw [htext]
    exact (Text.whole_of_isPlain hplain).append h.brackets
  · have hc := Text.isBlank_of_isPlain (hplain c (hname ▸ List.mem_cons_self))
    have hclose : Text.isBlank '>' = false := by decide
    have htrim := Text.trim_of_ends hc hclose (cs ++ '<' :: arguments.toList)
    rw [htext, hname]
    simpa using htrim

namespace TypeRef

mutual

theorem isArgument_text (t : TypeRef) (h : ∀ name ∈ t.names, isLegal name = true) :
    IsArgument t.text := by
  cases t with
  | builtin type format =>
    exact isArgument_of_isPlain (Builtin.isPlain_of_mem_names (Builtin.name_mem_names ..)).2
  | named name isValue =>
    have hname := h name (by simp [names])
    exact isArgument_of_isPlain (isPlain_of_isLegal hname)
  | collection item =>
    have hitem := isArgument_text item (by simpa only [names] using h)
    exact isArgument_generic "System.Collections.Generic.ICollection" rfl
      (List.all_eq_true.1 (by decide)) hitem.whole.inner
  | oneOf cases =>
    have hcases := isArgument_texts cases (by simpa only [names] using h)
    exact isArgument_generic Support.oneOf rfl (List.all_eq_true.1 (by decide))
      (inner_argumentsText hcases)
  | unknown => exact isArgument_of_isPlain (Builtin.isPlain_of_mem_names (by decide)).2

theorem isArgument_texts (ts : List TypeRef) (h : ∀ name ∈ namesAll ts, isLegal name = true) :
    ∀ text ∈ texts ts, IsArgument text := by
  cases ts with
  | nil => simp [texts]
  | cons t ts =>
    simp only [namesAll, List.forall_mem_append] at h
    simp only [texts, List.forall_mem_cons]
    exact ⟨isArgument_text t h.1, isArgument_texts ts h.2⟩

end

theorem texts_eq_map (ts : List TypeRef) : texts ts = ts.map text := by
  induction ts with
  | nil => rfl
  | cons t ts ih => rw [texts, ih, List.map_cons]

end TypeRef

end ContractGen
