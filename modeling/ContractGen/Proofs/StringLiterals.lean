import ContractGen.Code.Literal
import ContractGen.Json.Reader.String
import ContractGen.Proofs.SourceLines

/-!
# Reading string literals

`scanLiteral` reads a string literal the way C# does, from its opening quote to the first quote that
is not part of an escape. It gives back the text of a literal and leaves what follows, whatever that
is (`scan_stringLiteral`): what stands for one character of the text is read as that character and
never takes a character more (`Literal.scanBody_escapeChar`).

A literal must stay on its line. Of the characters that end a line three are escaped, and the line
separator and the paragraph separator are not, so a literal has those of its text
(`lineEnds_stringLiteral`).
-/

namespace ContractGen

namespace Literal

/-! ### The scanner -/

/-- The character that a letter after a backslash stands for. -/
def simpleEscape? (c : Char) : Option Char :=
  match c with
  | '"' => some '"'
  | '\\' => some '\\'
  | 'n' => some '\n'
  | 'r' => some '\r'
  | 't' => some '\t'
  | '0' => some '\x00'
  | _ => none

/-- The character with a code. Halves of surrogate pairs are none. -/
def charOf? (code : Nat) : Option Char := if code.isValidChar then some (Char.ofNat code) else none

/-- Put a character in front of the text that was read. -/
def addFirst (c : Char) (result : List Char × List Char) : List Char × List Char :=
  (c :: result.1, result.2)

/-- The text of a literal after its opening quote, and what follows its closing quote. -/
def scanBody : List Char → Option (List Char × List Char)
  | [] => none
  | '"' :: rest => some ([], rest)
  | '\\' :: 'u' :: a :: b :: c :: d :: rest => do
    let code ← Json.hex4? [a, b, c, d]
    let first ← charOf? code
    (scanBody rest).map (addFirst first)
  | '\\' :: e :: rest => do
    let first ← simpleEscape? e
    (scanBody rest).map (addFirst first)
  | ['\\'] => none
  | c :: rest => (scanBody rest).map (addFirst c)

/-- The text of the literal at the start of some code, and what follows it. -/
def scan : List Char → Option (List Char × List Char)
  | '"' :: rest => scanBody rest
  | _ => none

/-! ### Escapes -/

theorem hex4_of_lt {n : Nat} (h : n < 256) :
    Json.hex4 n = ['0', '0', Nat.digitChar (n / 16), Nat.digitChar (n % 16)] := by
  by_cases hn : n < 16
  · rw [Json.hex4, Nat.toDigits_of_lt_base hn, Nat.div_eq_of_lt hn, Nat.mod_eq_of_lt hn]
    rfl
  · rw [Json.hex4, Nat.toDigits_of_base_le (by decide) (by omega),
      Nat.toDigits_of_lt_base (by omega)]
    rfl

theorem hexValue?_digitChar : ∀ n < 16, Json.hexValue? (Nat.digitChar n) = some n := by decide

theorem hex4?_hex4 {n : Nat} (h : n < 256) : Json.hex4? (Json.hex4 n) = some n := by
  have hhigh := hexValue?_digitChar (n / 16) (by omega)
  have hlow := hexValue?_digitChar (n % 16) (by omega)
  have hzero : Json.hexValue? '0' = some 0 := by decide
  rw [hex4_of_lt h, Json.hex4?, hzero, hhigh, hlow]
  simp only [Option.bind_eq_bind, Option.bind_some, Option.some.injEq]
  omega

theorem charOf?_toNat (c : Char) : charOf? c.toNat = some c := by
  have hvalid : c.toNat.isValidChar := c.valid
  rw [charOf?, if_pos hvalid, Char.ofNat_toNat]

theorem lt_of_isControl {c : Char} (h : isControl c = true) : c.toNat < 256 := by
  simp only [isControl, Bool.or_eq_true, Bool.and_eq_true, decide_eq_true_eq] at h
  omega

theorem scanBody_plain {c : Char} (hquote : c ≠ '"') (hback : c ≠ '\\') (rest : List Char) :
    scanBody (c :: rest) = (scanBody rest).map (addFirst c) := by
  rw [scanBody] <;> simp [hquote, hback]

theorem scanBody_escape {e c : Char} (h : simpleEscape? e = some c) (rest : List Char) :
    scanBody ('\\' :: e :: rest) = (scanBody rest).map (addFirst c) := by
  have hcode : e ≠ 'u' := by
    rintro rfl
    cases h
  rw [scanBody]
  · simp [h]
  · simp [hcode]

theorem scanBody_code {digits : List Char} {c : Char} (hlength : digits.length = 4)
    (h : Json.hex4? digits = some c.toNat) (rest : List Char) :
    scanBody ('\\' :: 'u' :: digits ++ rest) = (scanBody rest).map (addFirst c) := by
  obtain ⟨a, b, d, e, rfl⟩ : ∃ a b d e, digits = [a, b, d, e] := List.length_eq_four.1 hlength
  simp only [List.cons_append, List.nil_append]
  rw [scanBody, h]
  simp [charOf?_toNat]

/-- **One character at a time**: how a literal shows a character is read as that character. -/
theorem scanBody_escapeChar (c : Char) (rest : List Char) :
    scanBody (escapeChar c ++ rest) = (scanBody rest).map (addFirst c) := by
  unfold escapeChar
  split
  · exact scanBody_escape rfl rest
  · exact scanBody_escape rfl rest
  · exact scanBody_escape rfl rest
  · exact scanBody_escape rfl rest
  · exact scanBody_escape rfl rest
  · exact scanBody_escape rfl rest
  · rename_i hquote hback _ _ _ _
    split_ifs with hcontrol
    · have hlt := lt_of_isControl hcontrol
      exact scanBody_code (by rw [hex4_of_lt hlt]; rfl) (hex4?_hex4 hlt) rest
    · exact scanBody_plain hquote hback rest

/-! ### Whole literals -/

theorem scan_quote (cs rest : List Char) : scan (quote cs ++ rest) = some (cs, rest) := by
  have hbody : scanBody (cs.flatMap escapeChar ++ '"' :: rest) = some (cs, rest) := by
    induction cs with
    | nil => rfl
    | cons c cs ih =>
      rw [List.flatMap_cons, List.append_assoc, scanBody_escapeChar, ih]
      rfl
  have hquote : quote cs ++ rest = '"' :: (cs.flatMap escapeChar ++ '"' :: rest) := by simp [quote]
  rw [hquote, scan, hbody]

/-- What is read does not depend on what follows. -/
theorem scanBody_append {cs text after : List Char} (h : scanBody cs = some (text, after))
    (more : List Char) : scanBody (cs ++ more) = some (text, after ++ more) := by
  -- the step that all cases with a character share
  have hstep : ∀ {c : Char} {rest text after : List Char},
      (∀ {text after}, scanBody rest = some (text, after) →
        scanBody (rest ++ more) = some (text, after ++ more)) →
      (scanBody rest).map (addFirst c) = some (text, after) →
      (scanBody (rest ++ more)).map (addFirst c) = some (text, after ++ more) := by
    intro c rest text after ih h
    obtain ⟨⟨t, a⟩, hrest, heq⟩ := Option.map_eq_some_iff.1 h
    obtain ⟨rfl, rfl⟩ := Prod.mk.inj heq
    rw [ih hrest]
    rfl
  fun_induction scanBody cs generalizing text after with
  | case1 => cases h
  | case2 rest =>
    obtain ⟨rfl, rfl⟩ := by simpa using h
    rfl
  | case3 a b c d rest ih =>
    obtain ⟨code, hcode, h⟩ := Option.bind_eq_some_iff.1 h
    obtain ⟨first, hfirst, h⟩ := Option.bind_eq_some_iff.1 h
    simp only [List.cons_append, scanBody, hcode, hfirst, Option.bind_eq_bind, Option.bind_some]
    exact hstep ih h
  | case4 e rest hcode ih =>
    obtain ⟨first, hfirst, h⟩ := Option.bind_eq_some_iff.1 h
    rw [List.cons_append, List.cons_append, scanBody_escape hfirst]
    exact hstep ih h
  | case5 => cases h
  | case6 c rest hquote hcode hescape hback ih =>
    have hplain : c ≠ '\\' := by
      rintro rfl
      cases rest with
      | nil => exact hback rfl rfl
      | cons e rest => exact hescape e rest rfl rfl
    rw [List.cons_append, scanBody_plain hquote hplain]
    exact hstep ih h

theorem scan_append {cs text after : List Char} (h : scan cs = some (text, after))
    (more : List Char) : scan (cs ++ more) = some (text, after ++ more) := by
  unfold scan at h
  split at h
  · exact scanBody_append h more
  · cases h

/-- A literal has no end before its last quote. -/
theorem scan_eq_none_of_append {cs short more : List Char} (h : quote cs = short ++ more)
    (hmore : more ≠ []) : scan short = none := by
  cases hshort : scan short with
  | none => rfl
  | some result =>
    have hlong := scan_append hshort more
    rw [← h, ← List.append_nil (quote cs), scan_quote] at hlong
    obtain ⟨-, hafter⟩ := Prod.mk.inj (Option.some.inj hlong)
    exact absurd (List.append_eq_nil_iff.1 hafter.symm).2 hmore

end Literal

/-- The text of the string literal at the start of some code, and what follows it. -/
def scanLiteral (code : String) : Option (String × String) :=
  (Literal.scan code.toList).map fun result => (String.ofList result.1, String.ofList result.2)

/-- **String literals can be read back**, whatever follows them. So texts with the same literal are
the same, and no text ends its literal early: up to any place before its last quote there is no
literal. -/
theorem scan_stringLiteral (v rest : String) :
    scanLiteral (stringLiteral v ++ rest) = some (v, rest) ∧
    (∀ w, stringLiteral w = stringLiteral v → w = v) ∧
    ∀ short more, stringLiteral v = short ++ more → more ≠ "" → scanLiteral short = none := by
  have hread : ∀ v rest : String, scanLiteral (stringLiteral v ++ rest) = some (v, rest) := by
    intro v rest
    simp [scanLiteral, stringLiteral, Literal.scan_quote]
  refine ⟨hread v rest, fun w heq => ?_, fun short more heq hmore => ?_⟩
  · have hw := hread w ""
    rw [heq, hread v ""] at hw
    exact (Prod.mk.inj (Option.some.inj hw)).1.symm
  · have hquote : Literal.quote v.toList = short.toList ++ more.toList := by
      simpa [stringLiteral] using congrArg String.toList heq
    rw [scanLiteral, Literal.scan_eq_none_of_append hquote (by simpa using hmore), Option.map_none]

/-- Backslashes and quotes, a null before a digit and a control of the second range. -/
example : scanLiteral (stringLiteral "\\\"\x001\u0085e" ++ "\", x)") =
    some ("\\\"\x001\u0085e", "\", x)") := by decide

/-! ### Line ends -/

namespace Literal

theorem isLineEnd_digitChar : ∀ n < 16, Source.isLineEnd (Nat.digitChar n) = false := by decide

/-- Whether a character separates lines or paragraphs. -/
def isSeparator (c : Char) : Bool := c == '\u2028' || c == '\u2029'

/-- Of the characters that end a line, all but the separators are escaped. -/
theorem filter_escapeChar (c : Char) :
    (escapeChar c).filter Source.isLineEnd = [c].filter isSeparator := by
  unfold escapeChar
  split
  · rfl
  · rfl
  · rfl
  · rfl
  · rfl
  · rfl
  · rename_i _ _ hfeed hreturn _ _
    split_ifs with hcontrol
    · have hlt := lt_of_isControl hcontrol
      have hhigh := isLineEnd_digitChar (c.toNat / 16) (by omega)
      have hlow := isLineEnd_digitChar (c.toNat % 16) (by omega)
      have hsep : isSeparator c = false := by
        simp only [isSeparator, Bool.or_eq_false_iff, beq_eq_false_iff_ne]
        refine ⟨?_, ?_⟩ <;> rintro rfl <;> exact absurd hlt (by decide)
      have hdigits : ∀ d ∈ '\\' :: 'u' :: Json.hex4 c.toNat, Source.isLineEnd d ≠ true := by
        rw [hex4_of_lt hlt]
        simp [hhigh, hlow, show Source.isLineEnd '\\' = false from rfl,
          show Source.isLineEnd 'u' = false from rfl, show Source.isLineEnd '0' = false from rfl]
      rw [List.filter_eq_nil_iff.2 hdigits, List.filter_singleton, hsep]
      rfl
    · have hnext : c ≠ '\u0085' := by
        rintro rfl
        exact hcontrol (by decide)
      have hsame : Source.isLineEnd c = isSeparator c := by
        rw [Source.isLineEnd, beq_false_of_ne hfeed, beq_false_of_ne hreturn, beq_false_of_ne hnext]
        rfl
      rw [List.filter_singleton, List.filter_singleton, hsame]

end Literal

/-- **Line ends in string literals.** A literal has the separators of lines and paragraphs that are
in its text, in order, and no other character that ends a line. So it stays on its line just if
there are none. -/
theorem lineEnds_stringLiteral (v : String) :
    (stringLiteral v).toList.filter Source.isLineEnd = v.toList.filter Literal.isSeparator ∧
    (Source.isOneLine (stringLiteral v).toList = true ↔
      '\u2028' ∉ v.toList ∧ '\u2029' ∉ v.toList) := by
  have hends : (stringLiteral v).toList.filter Source.isLineEnd =
      v.toList.filter Literal.isSeparator := by
    have hbody : (v.toList.flatMap Literal.escapeChar).filter Source.isLineEnd =
        v.toList.filter Literal.isSeparator := by
      rw [List.filter_flatMap]
      simp only [Literal.filter_escapeChar]
      rw [← List.filter_flatMap, List.flatMap_singleton']
    have hquote : ['"'].filter Source.isLineEnd = [] := rfl
    rw [stringLiteral, String.toList_ofList, Literal.quote, ← List.singleton_append,
      List.filter_append, List.filter_append, hquote, hbody, List.nil_append, List.append_nil]
  refine ⟨hends, ?_⟩
  -- no line ends are left just if none were there
  calc Source.isOneLine (stringLiteral v).toList = true
      ↔ (stringLiteral v).toList.filter Source.isLineEnd = [] := by
        simp [Source.isOneLine, List.filter_eq_nil_iff]
    _ ↔ v.toList.filter Literal.isSeparator = [] := by rw [hends]
    _ ↔ '\u2028' ∉ v.toList ∧ '\u2029' ∉ v.toList := by
        simp only [List.filter_eq_nil_iff, Literal.isSeparator, Bool.or_eq_true, beq_iff_eq, not_or]
        exact ⟨fun h => ⟨fun hmem => (h _ hmem).1 rfl, fun hmem => (h _ hmem).2 rfl⟩,
          fun h c hc => ⟨fun heq => h.1 (heq ▸ hc), fun heq => h.2 (heq ▸ hc)⟩⟩

/-- A text of two lines with a separator between them. -/
theorem separator_in_literal :
    Source.isOneLine (stringLiteral "one\u2028two").toList = false := by
  decide

end ContractGen
