import ContractGen.Identifier
import ContractGen.Proofs.Capitals
import Mathlib.Data.Char

/-!
# Spelling of words

What the two ways of making names do with the words of a text. A type name keeps letters and
numbers (`keptChars`), and a hint gives one exactly if it has any of these (`exists_typeName_iff`);
the hint for a nested type ends in a word, so it always does (`exists_typeName_append`). The member
name of a word is that word, if upper case does nothing to its first character, with `_` in front of
a number (`memberChars_word`).
-/

namespace ContractGen

namespace Identifier

/-! ### Digits -/

theorem toNat_of_isDigit {c : Char} (h : c.isDigit = true) : 0x30 ≤ c.toNat ∧ c.toNat ≤ 0x39 := by
  simpa [Char.isDigit, Char.le_def, UInt32.le_iff_toNat_le] using h

theorem isAlphanumeric_of_isDigit {c : Char} (h : c.isDigit = true) :
    Text.isAlphanumeric c = true := by
  obtain ⟨hlow, hhigh⟩ := toNat_of_isDigit h
  -- the first range of numeric characters is that of the decimal digits
  have hnumeric : Text.isNumeric c = true := by
    rw [Text.isNumeric, Text.numericRanges, Text.Ranges.has, if_neg (Nat.not_lt.2 hlow),
      decide_eq_true hhigh, Bool.true_or]
  rw [Text.isAlphanumeric, hnumeric, Bool.or_true]

theorem isNameChar_of_isDigit {c : Char} (h : c.isDigit = true) : isNameChar c = true := by
  simp [isNameChar, isAlphanumeric_of_isDigit h]

theorem isDigit_of_mem_toString {c : Char} {n : Nat} (h : c ∈ (toString n).toList) :
    c.isDigit = true := by
  have hdigit : c ∈ Nat.toDigits 10 n := by simpa using h
  exact Nat.isDigit_of_mem_toDigits (by decide) (by decide) hdigit

theorem not_mem_toString {c : Char} (hc : c.isDigit = false) (n : Nat) :
    c ∉ (toString n).toList := by
  intro h
  rw [isDigit_of_mem_toString h] at hc
  cases hc

/-! ### Type names -/

theorem guardFirst_eq_nil_iff {p : Char → Bool} {cs : List Char} :
    guardFirst p cs = [] ↔ cs = [] := by
  cases cs with
  | nil => simp [guardFirst]
  | cons c cs =>
    rw [guardFirst]
    split_ifs <;> simp

/-- What a type name keeps of a text: letters and numbers. `start` says that the text starts a
word. -/
def keptChars (start : Bool) (cs : List Char) : List Char :=
  (joinWords Text.isAlphanumeric start cs).filter Text.isAlphanumeric

theorem typeChars_eq (cs : List Char) :
    typeChars cs = guardFirst (fun c => !Text.isAlphabetic c) (keptChars true cs) := rfl

theorem keptChars_cons_of_sign {c : Char} (h : Text.isAlphanumeric c = false) (start : Bool)
    (cs : List Char) : keptChars start (c :: cs) = keptChars true cs := by
  rw [keptChars, joinWords, h, if_neg Bool.false_ne_true, keptChars]

theorem keptChars_true_cons {c : Char} (h : Text.isAlphanumeric c = true) (cs : List Char) :
    keptChars true (c :: cs) =
      (Text.upper c).filter Text.isAlphanumeric ++ keptChars false cs := by
  rw [keptChars, joinWords, if_pos h, if_pos rfl, List.filter_append, keptChars]

theorem keptChars_false_cons {c : Char} (h : Text.isAlphanumeric c = true) (cs : List Char) :
    keptChars false (c :: cs) = c :: keptChars false cs := by
  rw [keptChars, joinWords, if_pos h, if_neg Bool.false_ne_true, List.singleton_append,
    List.filter_cons_of_pos h, keptChars]

theorem keptChars_ne_nil_iff (start : Bool) {cs : List Char} :
    keptChars start cs ≠ [] ↔ ∃ c ∈ cs, Text.isAlphanumeric c = true := by
  induction cs generalizing start with
  | nil => simp [keptChars, joinWords]
  | cons c cs ih =>
    cases hc : Text.isAlphanumeric c with
    | false => rw [keptChars_cons_of_sign hc, ih, List.exists_mem_cons_iff]; simp [hc]
    | true =>
      refine iff_of_true ?_ ⟨c, List.mem_cons_self, hc⟩
      cases start with
      | true =>
        obtain ⟨d, rest, hupper, -⟩ := Text.exists_capital hc
        rw [keptChars_true_cons hc, hupper]
        exact List.cons_ne_nil _ _
      | false => rw [keptChars_false_cons hc]; exact List.cons_ne_nil _ _

theorem typeName?_eq_some_iff {hint name : String} :
    typeName? hint = some name ↔
      keptChars true hint.toList ≠ [] ∧ name.toList = typeChars hint.toList := by
  rw [ne_eq, ← guardFirst_eq_nil_iff, ← typeChars_eq, typeName?]
  cases typeChars hint.toList with
  | nil => simp
  | cons c cs => simp [← String.toList_inj, eq_comm]

theorem exists_typeName_iff {hint : String} :
    (∃ name, typeName? hint = some name) ↔ ∃ c ∈ hint.toList, Text.isAlphanumeric c = true := by
  rw [← keptChars_ne_nil_iff true]
  constructor
  · rintro ⟨name, hname⟩
    exact (typeName?_eq_some_iff.1 hname).1
  · intro hkept
    exact ⟨_, typeName?_eq_some_iff.2 ⟨hkept, String.toList_ofList⟩⟩

/-- A hint that ends in a word gives an identifier, whatever stands before that. -/
theorem exists_typeName_append (text : String) {word : String} {c : Char} {rest : List Char}
    (hword : word.toList = c :: rest) (hc : Text.isAlphanumeric c = true) :
    ∃ name, typeName? (text ++ word) = some name := by
  refine exists_typeName_iff.2 ⟨c, ?_, hc⟩
  rw [String.toList_append, hword]
  exact List.mem_append_right _ List.mem_cons_self

/-! ### Words as member names -/

theorem substitute_of_isNameChar {table : List (Char × String)} {cs : List Char}
    (htable : ∀ entry ∈ table, isNameChar entry.1 = false) (h : ∀ c ∈ cs, isNameChar c = true) :
    substitute table cs = cs := by
  induction cs with
  | nil => rfl
  | cons c cs ih =>
    have hlookup : table.lookup c = none := by
      refine List.lookup_eq_none_iff.2 fun entry hentry => bne_iff_ne.2 fun heq => ?_
      have hname := h c List.mem_cons_self
      rw [heq, htable entry hentry] at hname
      cases hname
    have hrest := ih fun d hd => h d (List.mem_cons_of_mem _ hd)
    rw [substitute] at hrest ⊢
    rw [List.flatMap_cons, hrest, hlookup]
    rfl

theorem joinWords_false {inWord : Char → Bool} {cs : List Char} (h : ∀ c ∈ cs, inWord c = true) :
    joinWords inWord false cs = cs := by
  induction cs with
  | nil => rfl
  | cons c cs ih =>
    rw [joinWords, if_pos (h c List.mem_cons_self), ih fun d hd => h d (List.mem_cons_of_mem _ hd)]
    rfl

/-- The member name of a word is that word, if upper case does nothing to its first character; in
front of a digit or another number stands `_`. -/
theorem memberChars_word {c : Char} {cs : List Char}
    (hword : ∀ d ∈ c :: cs, Text.isAlphanumeric d = true) (hupper : Text.upper c = [c]) :
    memberChars (c :: cs) = guardFirst Text.isNumeric (guardFirst Char.isDigit (c :: cs)) := by
  have hname : ∀ d ∈ c :: cs, isNameChar d = true := fun d hd => by simp [isNameChar, hword d hd]
  have hbefore : substitute signsBefore (c :: cs) = c :: cs :=
    substitute_of_isNameChar (by decide +kernel) hname
  have hmember : ∀ d ∈ c :: cs, isMemberChar d = true := fun d hd => by
    simp [isMemberChar, hword d hd]
  have hjoined : joinWords isMemberChar true (c :: cs) = c :: cs := by
    rw [joinWords, if_pos (hmember c List.mem_cons_self), if_pos rfl, hupper,
      joinWords_false fun d hd => hmember d (List.mem_cons_of_mem _ hd)]
    rfl
  have hguarded : ∀ d ∈ guardFirst Char.isDigit (c :: cs), isNameChar d = true := by
    rw [guardFirst]
    split_ifs
    · simpa [isNameChar] using hname
    · exact hname
  have hafter : (substitute signsAfter (guardFirst Char.isDigit (c :: cs))).filter isNameChar =
      guardFirst Char.isDigit (c :: cs) := by
    rw [substitute_of_isNameChar (by decide +kernel) hguarded]
    exact List.filter_eq_self.2 hguarded
  have hne : (guardFirst Char.isDigit (c :: cs)).isEmpty = false := by
    rw [guardFirst]
    split_ifs <;> rfl
  simp only [memberChars, upperCamelChars, hbefore, hjoined, hafter, hne, Bool.false_eq_true,
    ↓reduceIte]

theorem memberChars_digits {c : Char} {cs : List Char} (h : ∀ d ∈ c :: cs, d.isDigit = true) :
    memberChars (c :: cs) = '_' :: c :: cs := by
  have hc := h c List.mem_cons_self
  have hupper : Text.upper c = [c] :=
    Text.upper_of_lt (Nat.lt_of_le_of_lt (toNat_of_isDigit hc).2 (by decide))
  have hsign : Text.isNumeric '_' = false := by decide +kernel
  rw [memberChars_word (fun d hd => isAlphanumeric_of_isDigit (h d hd)) hupper, guardFirst,
    if_pos hc, guardFirst, hsign]
  rfl

end Identifier

end ContractGen
