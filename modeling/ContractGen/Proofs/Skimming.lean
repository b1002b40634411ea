import ContractGen.Json.Reader.Skim
import ContractGen.Proofs.Readings

/-!
# Skipping what can be read

A value that nobody asks for is skipped by a machine of its own, with a list of open arrays and
objects where the reader of values recurses. The machine takes more texts than the reader. On those
that the reader takes it stops at the same place (`skimValue_of_readValue`).

The leaves come first: numbers, strings and other scalars are skipped up to where they are read.
Arrays and objects are then described by the items and entries that are read of them
(`Items`, `Entries`, `readValue_cases`), and the machine is followed along these. Every character
pays for three steps of it; this is why the steps that it is allowed are enough.
-/

namespace ContractGen

namespace Json

/-! ### Cursors -/

namespace Cursor

theorem skipBlanksFrom_idem (place : Place) (cs : List Char) :
    (skipBlanksFrom place cs).skipBlanks = skipBlanksFrom place cs := by
  induction cs generalizing place with
  | nil => rfl
  | cons c rest ih =>
    by_cases hblank : isBlank c = true
    · simp only [skipBlanksFrom, hblank, ↓reduceIte]
      exact ih (place.after c)
    · simp only [skipBlanksFrom, hblank, Bool.false_eq_true, ↓reduceIte, skipBlanks]

@[simp] theorem skipBlanks_skipBlanks (cur : Cursor) :
    cur.skipBlanks.skipBlanks = cur.skipBlanks :=
  skipBlanksFrom_idem cur.place cur.rest

theorem length_skipBlanks_le (cur : Cursor) : cur.skipBlanks.rest.length ≤ cur.rest.length := by
  obtain ⟨rest, place⟩ := cur
  simp only [skipBlanks]
  induction rest generalizing place with
  | nil => exact Nat.le_refl _
  | cons c rest ih =>
    simp only [skipBlanksFrom]
    split_ifs
    · exact Nat.le_trans (ih (place.after c)) (Nat.le_succ _)
    · exact Nat.le_refl _

theorem length_step {cur : Cursor} {c : Char} {rest : List Char} (h : cur.rest = c :: rest) :
    (cur.step c rest).rest.length + 1 = cur.rest.length := by
  simp [h, step]

theorem length_skipAscii_le (cur : Cursor) (n : Nat) :
    (cur.skipAscii n).rest.length ≤ cur.rest.length := by
  simp [skipAscii]

/-- An ASCII character that is no line feed is one column wide. -/
theorem step_eq_skipAscii {cur : Cursor} {c : Char} {rest : List Char} (h : cur.rest = c :: rest)
    (hc : c ≠ '\n') (hsize : c.utf8Size = 1) : cur.step c rest = cur.skipAscii 1 := by
  simp [step, skipAscii, h, Place.after, hc, hsize]

end Cursor

/-! ### Numbers -/

section Numbers

variable {negative : Bool} {significand : Nat} {exponent : Int} {cur cur' : Cursor} {n : Number}

theorem cursor_of_doubleFrom (h : doubleFrom negative significand exponent cur = .ok (n, cur')) :
    cur' = cur := by
  unfold doubleFrom at h
  split at h
  · exact (Prod.mk.inj (Except.ok.inj h)).2.symm
  · cases h

theorem cursor_of_wholeNumber (h : wholeNumber negative significand cur = .ok (n, cur')) :
    cur' = cur := by
  unfold wholeNumber at h
  split_ifs at h
  · exact (Prod.mk.inj (Except.ok.inj h)).2.symm
  · exact cursor_of_doubleFrom h
  · exact (Prod.mk.inj (Except.ok.inj h)).2.symm

theorem skimDigits_of_isDigit {c : Char} {rest : List Char} (h : cur.rest = c :: rest)
    (hc : c.isDigit = true) :
    skimDigits cur = .ok (cur.skipAscii (cur.rest.takeWhile Char.isDigit).length) := by
  simp [skimDigits, h, hc, skipDigits]

theorem exists_digit_of_takeWhile {cs : List Char}
    (h : (cs.takeWhile Char.isDigit).isEmpty = false) :
    ∃ c rest, cs = c :: rest ∧ c.isDigit = true := by
  cases cs with
  | nil => simp at h
  | cons c rest =>
    refine ⟨c, rest, rfl, ?_⟩
    by_contra hc
    simp [hc] at h

theorem skimDigits_of_readExponentDigits {down : Bool}
    (h : readExponentDigits negative significand exponent down cur = .ok (n, cur')) :
    skimDigits cur = .ok cur' := by
  unfold readExponentDigits at h
  split at h
  · cases h
  rename_i c rest hrest
  split at h
  · cases h
  rename_i hdigit
  rw [skimDigits_of_isDigit hrest (by simpa using hdigit)]
  simp only at h
  split at h
  · rw [cursor_of_doubleFrom h]
  · split at h
    · cases h
    · exact congrArg Except.ok (Prod.mk.inj (Except.ok.inj h)).2

theorem skimExponent_of_readExponent {c : Char} {rest : List Char} (hrest : cur.rest = c :: rest)
    (hc : c = 'e' ∨ c = 'E')
    (h : readExponent negative significand exponent cur = .ok (n, cur')) :
    skimExponent cur = .ok cur' := by
  have hstep : cur.step c rest = cur.skipAscii 1 := by
    rcases hc with rfl | rfl <;> exact Cursor.step_eq_skipAscii hrest (by decide) rfl
  have hmark : (decide (c = 'e') || decide (c = 'E')) = true := by simpa using hc
  simp only [skimExponent, hrest, hmark, ↓reduceIte, hstep]
  exact skimDigits_of_readExponentDigits h

theorem skimExponent_of_no_mark (hsmall : ∀ rest, cur.rest ≠ 'e' :: rest)
    (hlarge : ∀ rest, cur.rest ≠ 'E' :: rest) : skimExponent cur = .ok cur := by
  unfold skimExponent
  split
  · rename_i c rest hrest
    split_ifs with hmark
    · exfalso
      rcases (by simpa using hmark : c = 'e' ∨ c = 'E') with rfl | rfl
      · exact hsmall rest hrest
      · exact hlarge rest hrest
    · rfl
  · rfl

theorem skimExponent_of_readScaled
    (h : readScaled negative significand exponent cur = .ok (n, cur')) :
    skimExponent cur = .ok cur' := by
  unfold readScaled at h
  split at h
  · rename_i hrest
    exact skimExponent_of_readExponent hrest (.inl rfl) h
  · rename_i hrest
    exact skimExponent_of_readExponent hrest (.inr rfl) h
  · rename_i hsmall hlarge
    rw [cursor_of_doubleFrom h]
    exact skimExponent_of_no_mark hsmall hlarge

theorem skimFraction_of_readFraction {rest : List Char} (hrest : cur.rest = '.' :: rest)
    (h : readFraction negative significand exponent cur = .ok (n, cur')) :
    skimFraction cur = .ok cur' := by
  simp only [readFraction] at h
  simp only [skimFraction, hrest, Cursor.step_eq_skipAscii hrest (by decide) rfl]
  generalize cur.skipAscii 1 = cur₁ at h ⊢
  split_ifs at h with hnone hend
  · cases h
  · cases h
  · obtain ⟨c, more, hcur₁, hc⟩ := exists_digit_of_takeWhile (by simpa using hnone)
    rw [skimDigits_of_isDigit hcur₁ hc]
    exact skimExponent_of_readScaled h

theorem skimFraction_of_readTail {dropped : Nat}
    (h : readTail negative significand dropped cur = .ok (n, cur')) :
    skimFraction cur = .ok cur' := by
  unfold readTail at h
  split at h
  · rename_i hrest
    exact skimFraction_of_readFraction hrest h
  · rename_i hrest
    simp only [skimFraction, hrest]
    exact skimExponent_of_readExponent hrest (.inl rfl) h
  · rename_i hrest
    simp only [skimFraction, hrest]
    exact skimExponent_of_readExponent hrest (.inr rfl) h
  · rename_i hpoint hsmall hlarge
    have hcur : cur' = cur := by
      split_ifs at h
      · exact cursor_of_wholeNumber h
      · exact cursor_of_doubleFrom h
    rw [hcur, skimFraction]
    split
    · rename_i rest hrest
      exact absurd hrest (hpoint rest)
    · exact skimExponent_of_no_mark hsmall hlarge

/-- **A number is skipped up to where it is read.** -/
theorem skimNumber_of_readNumber (h : readNumber negative cur = .ok (n, cur')) :
    skimNumber cur = .ok cur' := by
  unfold readNumber at h
  split at h
  · cases h
  rename_i c rest hrest
  simp only at h
  split_ifs at h with hnone hzero
  · cases h
  · cases h
  have htail := skimFraction_of_readTail h
  obtain ⟨d, more, hcons, hd⟩ := exists_digit_of_takeWhile (by simpa using hnone)
  obtain ⟨rfl, rfl⟩ := List.cons.inj (hrest.symm.trans hcons)
  by_cases hc : c = '0'
  · -- a zero stands alone
    subst hc
    have hlength : (cur.rest.takeWhile Char.isDigit).length = 1 := by
      have hle : (cur.rest.takeWhile Char.isDigit).length ≤ 1 := by simpa using hzero
      have hpos : 0 < (cur.rest.takeWhile Char.isDigit).length := by simp [hrest]
      omega
    rw [hlength] at htail
    simp only [skimNumber, hrest]
    cases rest with
    | nil => simpa [skimFraction, skimExponent, Cursor.skipAscii, hrest] using htail
    | cons d more =>
      have hd' : d.isDigit = false := by
        by_contra hdigit
        simp [hrest, (by simpa using hdigit : d.isDigit = true)] at hlength
      simpa [hd'] using htail
  · have hskim : skimNumber cur = (skimDigits cur >>= skimFraction) := by
      unfold skimNumber
      split
      · rename_i rest' heq
        exact absurd (List.cons.inj (hrest.symm.trans heq)).1 hc
      · rfl
    rw [hskim, skimDigits_of_isDigit hrest hd]
    exact htail

theorem length_skimDigits_lt (h : skimDigits cur = .ok cur') :
    cur'.rest.length < cur.rest.length := by
  unfold skimDigits at h
  split at h
  · cases h
  rename_i c rest hrest
  split_ifs at h with hc
  · obtain rfl := Except.ok.inj h
    have hdigits : 0 < (cur.rest.takeWhile Char.isDigit).length := by simp [hrest, hc]
    have hlength : 0 < cur.rest.length := by simp [hrest]
    simp only [skipDigits, Cursor.skipAscii, List.length_drop]
    omega
  · cases h

theorem length_exponentSign_le (cur : Cursor) :
    (exponentSign cur).2.rest.length ≤ cur.rest.length := by
  unfold exponentSign
  split
  · exact cur.length_skipAscii_le 1
  · exact cur.length_skipAscii_le 1
  · exact Nat.le_refl _

theorem length_skimExponent_le (h : skimExponent cur = .ok cur') :
    cur'.rest.length ≤ cur.rest.length := by
  unfold skimExponent at h
  split at h
  · rename_i c rest hrest
    have hstep := Cursor.length_step hrest
    split_ifs at h
    · have hsign := length_exponentSign_le (cur.step c rest)
      have hlt := length_skimDigits_lt h
      omega
    · exact Nat.le_of_eq (congrArg (·.rest.length) (Except.ok.inj h).symm)
  · exact Nat.le_of_eq (congrArg (·.rest.length) (Except.ok.inj h).symm)

theorem length_skimFraction_le (h : skimFraction cur = .ok cur') :
    cur'.rest.length ≤ cur.rest.length := by
  unfold skimFraction at h
  split at h
  · rename_i rest hrest
    have hstep := Cursor.length_step hrest
    obtain ⟨cur₁, hdigits, hexponent⟩ := bind_eq_ok_iff.1 h
    have hlt := length_skimDigits_lt hdigits
    have hle := length_skimExponent_le hexponent
    omega
  · exact length_skimExponent_le h

theorem length_skimNumber_lt (h : skimNumber cur = .ok cur') :
    cur'.rest.length < cur.rest.length := by
  unfold skimNumber at h
  split at h
  · rename_i rest hrest
    have hlt : (cur.skipAscii 1).rest.length < cur.rest.length := by
      simp [Cursor.skipAscii, hrest]
    split at h
    · split_ifs at h
      · cases h
      · exact Nat.lt_of_le_of_lt (length_skimFraction_le h) hlt
    · obtain rfl := Except.ok.inj h
      exact hlt
  · obtain ⟨cur₁, hdigits, hfraction⟩ := bind_eq_ok_iff.1 h
    exact Nat.lt_of_le_of_lt (length_skimFraction_le hfraction) (length_skimDigits_lt hdigits)

end Numbers

/-! ### Strings -/

section Strings

variable {cur cur' : Cursor}

theorem length_readHex4_le {n : Nat} (h : readHex4 cur = .ok (n, cur')) :
    cur'.rest.length ≤ cur.rest.length := by
  unfold readHex4 at h
  split at h
  · cases h
  · split at h
    · obtain ⟨-, rfl⟩ := Prod.mk.inj (Except.ok.inj h)
      exact cur.length_skipAscii_le 4
    · cases h

theorem readHalf_eq_ok {c : Char} (h : readHalf c cur = .ok cur') :
    ∃ rest, cur.rest = c :: rest ∧ cur' = cur.step c rest := by
  unfold readHalf at h
  split at h
  · cases h
  · rename_i d rest hrest
    split_ifs at h with hd
    · subst hd
      exact ⟨rest, hrest, (Except.ok.inj h).symm⟩
    · cases h

theorem length_skimEscape_lt (h : skimEscape cur = .ok cur') :
    cur'.rest.length < cur.rest.length := by
  unfold skimEscape at h
  split at h
  · cases h
  rename_i c rest hrest
  have hstep := Cursor.length_step hrest
  split_ifs at h
  · obtain ⟨⟨n, cur₁⟩, hhex, rfl⟩ := map_eq_ok_iff.1 h
    have hle := length_readHex4_le hhex
    exact Nat.lt_of_le_of_lt hle (by omega)
  · obtain rfl := Except.ok.inj h
    omega
  · cases h

/-- An escape is skipped up to where it is read, or else two escapes are skipped, of a surrogate
pair. -/
theorem skimEscape_of_readEscape {d : Char} (h : readEscape cur = .ok (d, cur')) :
    skimEscape cur = .ok cur' ∨ ∃ cur₁ rest, skimEscape cur = .ok cur₁ ∧ cur₁.rest = '\\' :: rest ∧
      skimEscape (cur₁.step '\\' rest) = .ok cur' := by
  unfold readEscape at h
  split at h
  · cases h
  rename_i c rest hrest
  by_cases hc : c = 'u'
  · subst hc
    simp only [↓reduceIte, readUnicode, bind_eq_ok_iff, Prod.exists] at h
    obtain ⟨high, cur₁, hhigh, h⟩ := h
    have hfirst : skimEscape cur = .ok cur₁ := by
      simp [skimEscape, hrest, hhigh, Except.map]
    split_ifs at h
    · cases h
    · right
      simp only [bind_eq_ok_iff, Prod.exists] at h
      obtain ⟨cur₂, hslash, cur₃, hu, low, cur₄, hlow, h⟩ := h
      obtain ⟨rest₁, hrest₁, rfl⟩ := readHalf_eq_ok hslash
      obtain ⟨rest₂, hrest₂, rfl⟩ := readHalf_eq_ok hu
      refine ⟨cur₁, rest₁, hfirst, hrest₁, ?_⟩
      split_ifs at h
      · obtain ⟨-, rfl⟩ := Prod.mk.inj (Except.ok.inj h)
        simp [skimEscape, hrest₂, hlow, Except.map]
      · cases h
    · left
      obtain ⟨-, rfl⟩ := Prod.mk.inj (Except.ok.inj h)
      exact hfirst
  · left
    simp only [hc, ↓reduceIte] at h
    split at h
    · rename_i e hsimple
      obtain ⟨-, rfl⟩ := Prod.mk.inj (Except.ok.inj h)
      simp [skimEscape, hrest, hc, hsimple]
    · cases h

theorem skimStringFrom_of_readStringFrom {fuel fuel' : Nat} {done : List Char} {s : String}
    (h : readStringFrom fuel done cur = .ok (s, cur')) (hfuel : cur.rest.length < fuel') :
    skimStringFrom fuel' cur = .ok cur' := by
  -- reading takes a surrogate pair at once and skipping in two steps, so that the bounds go apart
  induction fuel generalizing done cur fuel' with
  | zero => cases h
  | succ fuel ih =>
    obtain _ | fuel' := fuel'
    · omega
    unfold readStringFrom at h
    split at h
    · cases h
    rename_i c rest hrest
    have hstep := Cursor.length_step hrest
    simp only [skimStringFrom, hrest]
    by_cases hquote : c = '"'
    · simp only [hquote, ↓reduceIte] at h ⊢
      exact congrArg Except.ok (Prod.mk.inj (Except.ok.inj h)).2
    by_cases hslash : c = '\\'
    · subst hslash
      simp only [Char.reduceEq, ↓reduceIte] at h ⊢
      obtain ⟨⟨d, cur₁⟩, hescape, hrest₁⟩ := bind_eq_ok_iff.1 h
      rcases skimEscape_of_readEscape hescape with hskim | ⟨cur₂, rest₂, hfirst, hrest₂, hsecond⟩
      · have hlt := length_skimEscape_lt hskim
        rw [hskim]
        exact ih hrest₁ (by omega)
      · -- the second half of the pair takes a step of its own
        have hlt := length_skimEscape_lt hfirst
        have hlt₁ := length_skimEscape_lt hsecond
        have hstep₂ := Cursor.length_step hrest₂
        obtain _ | fuel' := fuel'
        · omega
        simp only [hfirst, bind, Except.bind, skimStringFrom, hrest₂]
        simp only [Char.reduceEq, ↓reduceIte, hsecond]
        exact ih hrest₁ (by omega)
    · simp only [hquote, hslash, ↓reduceIte] at h ⊢
      split_ifs at h ⊢
      · cases h
      · exact ih h (by omega)

/-- **A string is skipped up to where it is read.** -/
theorem skimString_of_readString {s : String} (h : readString cur = .ok (s, cur')) :
    skimString cur = .ok cur' :=
  skimStringFrom_of_readStringFrom h (Nat.lt_succ_self _)

theorem length_skimStringFrom_lt {fuel : Nat} (h : skimStringFrom fuel cur = .ok cur') :
    cur'.rest.length < cur.rest.length := by
  induction fuel generalizing cur with
  | zero => cases h
  | succ fuel ih =>
    unfold skimStringFrom at h
    split at h
    · cases h
    rename_i c rest hrest
    have hstep := Cursor.length_step hrest
    split_ifs at h
    · obtain rfl := Except.ok.inj h
      omega
    · obtain ⟨cur₁, hescape, hmore⟩ := bind_eq_ok_iff.1 h
      have hlt := length_skimEscape_lt hescape
      have hlt₁ := ih hmore
      omega
    · cases h
    · have hlt := ih h
      omega

end Strings

/-! ### Scalars -/

section Scalars

variable {cur cur' : Cursor}

theorem length_readWord_le {word : List Char} (h : readWord word cur = .ok cur') :
    cur'.rest.length ≤ cur.rest.length := by
  induction word generalizing cur with
  | nil => exact Nat.le_of_eq (congrArg (·.rest.length) (Except.ok.inj h).symm)
  | cons w word ih =>
    unfold readWord at h
    split at h
    · cases h
    rename_i c rest hrest
    have hstep := Cursor.length_step hrest
    split_ifs at h
    · have hle := ih h
      omega
    · cases h

theorem length_skimScalar_lt (h : skimScalar cur = .ok cur') :
    cur'.rest.length < cur.rest.length := by
  unfold skimScalar at h
  split at h
  · cases h
  rename_i c rest hrest
  have hstep := Cursor.length_step hrest
  split_ifs at h
  · have hle := length_readWord_le h
    omega
  · have hle := length_readWord_le h
    omega
  · have hle := length_readWord_le h
    omega
  · have hlt := length_skimNumber_lt h
    omega
  · exact length_skimNumber_lt h
  · have hlt := length_skimStringFrom_lt h
    omega
  · cases h

/-- **A scalar is skipped up to where it is read.** -/
theorem skimScalar_of_readScalar {v : Value} (h : readScalar cur = .ok (v, cur')) :
    skimScalar cur = .ok cur' := by
  unfold readScalar at h
  split at h
  · cases h
  rename_i c rest hrest
  simp only [skimScalar, hrest]
  split_ifs at h ⊢
  · obtain ⟨_, hword, hv⟩ := map_eq_ok_iff.1 h
    rw [hword, (Prod.mk.inj hv).2]
  · obtain ⟨_, hword, hv⟩ := map_eq_ok_iff.1 h
    rw [hword, (Prod.mk.inj hv).2]
  · obtain ⟨_, hword, hv⟩ := map_eq_ok_iff.1 h
    rw [hword, (Prod.mk.inj hv).2]
  · obtain ⟨⟨n, _⟩, hnumber, hv⟩ := map_eq_ok_iff.1 h
    rw [skimNumber_of_readNumber hnumber, (Prod.mk.inj hv).2]
  · obtain ⟨⟨n, _⟩, hnumber, hv⟩ := map_eq_ok_iff.1 h
    rw [skimNumber_of_readNumber hnumber, (Prod.mk.inj hv).2]
  · obtain ⟨⟨s, _⟩, hstring, hv⟩ := map_eq_ok_iff.1 h
    rw [skimString_of_readString hstring, (Prod.mk.inj hv).2]
  · cases h

end Scalars

/-! ### Keys and places between members -/

section Members

variable {first : Bool} {frame : Frame} {cur cur₁ cur' : Cursor}

theorem readValue_skipBlanks (depth : Nat) (cur : Cursor) :
    readValue depth cur.skipBlanks = readValue depth cur := by
  unfold readValue
  rw [Cursor.skipBlanks_skipBlanks]

theorem length_readColon_le (h : readColon cur = .ok cur') :
    cur'.rest.length ≤ cur.rest.length := by
  have hblanks := cur.length_skipBlanks_le
  unfold readColon at h
  simp only at h
  split at h
  · cases h
  rename_i c rest hrest
  have hstep := Cursor.length_step hrest
  split_ifs at h
  · obtain rfl := Except.ok.inj h
    omega
  · cases h

theorem length_skimKey_le (h : skimKey cur = .ok cur') : cur'.rest.length ≤ cur.rest.length := by
  have hblanks := cur.length_skipBlanks_le
  unfold skimKey at h
  simp only at h
  split at h
  · cases h
  rename_i c rest hrest
  have hstep := Cursor.length_step hrest
  split_ifs at h
  · obtain ⟨cur₁, hstring, hcolon⟩ := bind_eq_ok_iff.1 h
    have hlt := length_skimStringFrom_lt hstring
    have hle := length_readColon_le hcolon
    omega
  · cases h

theorem skimKey_of_readKey {key : String} (hkey : readKey cur.skipBlanks = .ok (key, cur₁))
    (hcolon : readColon cur₁ = .ok cur') : skimKey cur = .ok cur' := by
  unfold readKey at hkey
  split at hkey
  · cases hkey
  rename_i c rest hrest
  split_ifs at hkey with hquote
  · simp only [skimKey, hrest, hquote, ↓reduceIte]
    rw [← hquote, skimString_of_readString hkey]
    exact hcolon
  · cases hkey

/-- The frame goes on, with a member at the second cursor or after the blanks there. -/
inductive GoesOn (frame : Frame) : Bool → Cursor → Cursor → Prop where
  /-- The first member stands where the frame could have ended. -/
  | first {cur : Cursor} {c : Char} {rest : List Char} : cur.skipBlanks.rest = c :: rest →
      c ≠ frame.closer → GoesOn frame true cur cur.skipBlanks
  /-- A comma goes before any other. -/
  | comma {cur : Cursor} {rest : List Char} : cur.skipBlanks.rest = ',' :: rest →
      GoesOn frame false cur (cur.skipBlanks.step ',' rest)

/-- What an array can go on with: its end, or an item. -/
theorem nextItem_cases {more : Bool} (h : nextItem first cur = .ok (more, cur')) :
    (more = false ∧ ∃ rest, cur.skipBlanks.rest = Frame.list.closer :: rest ∧
      cur' = cur.skipBlanks.step Frame.list.closer rest) ∨
    (more = true ∧ ∃ cur₁, GoesOn .list first cur cur₁ ∧ cur' = cur₁.skipBlanks) := by
  unfold nextItem at h
  simp only at h
  split at h
  · cases h
  rename_i c rest hrest
  split_ifs at h with hclose hfirst hcomma
  · subst hclose
    obtain ⟨rfl, rfl⟩ := Prod.mk.inj (Except.ok.inj h)
    exact .inl ⟨rfl, rest, hrest, rfl⟩
  · subst hfirst
    obtain ⟨rfl, rfl⟩ := Prod.mk.inj (Except.ok.inj h)
    exact .inr ⟨rfl, _, .first hrest hclose, (cur.skipBlanks_skipBlanks).symm⟩
  · subst hcomma
    obtain rfl : first = false := by simpa using hfirst
    split at h
    · cases h
    · split_ifs at h
      · cases h
      · obtain ⟨rfl, rfl⟩ := Prod.mk.inj (Except.ok.inj h)
        exact .inr ⟨rfl, _, .comma hrest, rfl⟩
  · cases h

/-- What an object can go on with: its end, or an entry with its key. -/
theorem nextKey_cases {found : Option String} (h : nextKey first cur = .ok (found, cur')) :
    (found = none ∧ ∃ rest, cur.skipBlanks.rest = Frame.object.closer :: rest ∧
      cur' = cur.skipBlanks.step Frame.object.closer rest) ∨
    ∃ key cur₁, found = some key ∧ GoesOn .object first cur cur₁ ∧
      readKey cur₁.skipBlanks = .ok (key, cur') := by
  have hread : ∀ {cur₁}, ((readKey cur₁).map fun x => (some x.1, x.2)) =
      .ok (found, cur') → ∃ key, found = some key ∧ readKey cur₁ = .ok (key, cur') := by
    intro cur₁ hmap
    obtain ⟨⟨key, _⟩, hkey, heq⟩ := map_eq_ok_iff.1 hmap
    obtain ⟨rfl, rfl⟩ := Prod.mk.inj heq
    exact ⟨key, rfl, hkey⟩
  unfold nextKey at h
  simp only at h
  split at h
  · cases h
  rename_i c rest hrest
  split_ifs at h with hclose hfirst hcomma
  · subst hclose
    obtain ⟨rfl, rfl⟩ := Prod.mk.inj (Except.ok.inj h)
    exact .inl ⟨rfl, rest, hrest, rfl⟩
  · subst hfirst
    obtain ⟨key, hfound, hkey⟩ := hread h
    exact .inr ⟨key, _, hfound, .first hrest hclose, by rwa [Cursor.skipBlanks_skipBlanks]⟩
  · subst hcomma
    obtain rfl : first = false := by simpa using hfirst
    split at h
    · cases h
    · obtain ⟨key, hfound, hkey⟩ := hread h
      exact .inr ⟨key, _, hfound, .comma hrest, hkey⟩
  · cases h

theorem GoesOn.length_le (h : GoesOn frame first cur cur₁) :
    cur₁.rest.length + (if first then 0 else 1) ≤ cur.rest.length := by
  have hblanks := cur.length_skipBlanks_le
  cases h with
  | first => simpa using hblanks
  | comma hrest =>
    have hstep := Cursor.length_step hrest
    simp only [Bool.false_eq_true, ↓reduceIte]
    omega

end Members

/-! ### The machine -/

section Machine

variable {depth : Nat} {first : Bool} {frame : Frame} {cur cur₁ cur₂ cur₃ cur' : Cursor}

/-- A value is skipped, in no more than three steps for each of its characters. -/
def SkipsValue (cur cur' : Cursor) : Prop :=
  ∃ n, n + 3 * cur'.rest.length ≤ 3 * cur.rest.length ∧ ∀ fuel frames,
    skimFrom (fuel + n) .value frames cur = skimFrom fuel (.next false) frames cur'

/-- The rest of a frame is skipped, in no more than three steps for each of its characters; the
first member is without a comma that pays for its steps. -/
def SkipsFrame (frame : Frame) (first : Bool) (cur cur' : Cursor) : Prop :=
  ∃ n, n + 3 * cur'.rest.length ≤ 3 * cur.rest.length + (if first then 2 else 0) ∧
    ∀ fuel frames, skimFrom (fuel + n) (.next first) (frame :: frames) cur =
      skimFrom fuel (.next false) frames cur'

theorem skimFrom_next_of_goesOn (h : GoesOn frame first cur cur₁) (fuel : Nat)
    (frames : List Frame) : skimFrom (fuel + 1) (.next first) (frame :: frames) cur =
      skimFrom fuel .member (frame :: frames) cur₁ := by
  cases h with
  | first hrest hclose => simp [skimFrom, hrest, hclose]
  | comma hrest => simp [skimFrom, hrest]

theorem SkipsFrame.close {rest : List Char} (h : cur.skipBlanks.rest = frame.closer :: rest) :
    SkipsFrame frame first cur (cur.skipBlanks.step frame.closer rest) := by
  have hblanks := cur.length_skipBlanks_le
  have hstep := Cursor.length_step h
  refine ⟨1, by omega, fun fuel frames => ?_⟩
  have hcomma : frame.closer ≠ ',' := by cases frame <;> decide
  simp [skimFrom, h, hcomma]

theorem SkipsFrame.member (hgoes : GoesOn frame first cur cur₁)
    (hmember : ∀ fuel frames, skimFrom (fuel + 1) .member (frame :: frames) cur₁ =
      skimFrom fuel .value (frame :: frames) cur₂)
    (hlength : cur₂.rest.length ≤ cur₁.rest.length) (hvalue : SkipsValue cur₂ cur₃)
    (hmore : SkipsFrame frame false cur₃ cur') : SkipsFrame frame first cur cur' := by
  obtain ⟨n, hn, hskips⟩ := hvalue
  obtain ⟨m, hm, hcloses⟩ := hmore
  have hle := hgoes.length_le
  refine ⟨m + n + 1 + 1, ?_, fun fuel frames => ?_⟩
  · cases first <;> simp only [Bool.false_eq_true, ↓reduceIte] at hle hm ⊢ <;> omega
  · have hsteps : fuel + (m + n + 1 + 1) = fuel + m + n + 1 + 1 := by omega
    calc skimFrom (fuel + (m + n + 1 + 1)) (.next first) (frame :: frames) cur
        = skimFrom (fuel + m + n + 1 + 1) (.next first) (frame :: frames) cur := by rw [hsteps]
      _ = skimFrom (fuel + m + n + 1) .member (frame :: frames) cur₁ :=
          skimFrom_next_of_goesOn hgoes _ frames
      _ = skimFrom (fuel + m + n) .value (frame :: frames) cur₂ := hmember _ frames
      _ = skimFrom (fuel + m) (.next false) (frame :: frames) cur₃ := hskips _ _
      _ = skimFrom fuel (.next false) frames cur' := hcloses _ _

theorem Items.skipsFrame {vs : List Value}
    (hvalue : ∀ cur v cur', readValue depth cur = .ok (v, cur') → SkipsValue cur cur')
    (h : Items depth first cur vs cur') : SkipsFrame .list first cur cur' := by
  induction h with
  | done hnext =>
    obtain ⟨-, rest, hrest, rfl⟩ | ⟨⟨⟩, -⟩ := nextItem_cases hnext
    exact .close hrest
  | item hnext hv _ ih =>
    obtain ⟨⟨⟩, -⟩ | ⟨-, cur₁, hgoes, rfl⟩ := nextItem_cases hnext
    rw [readValue_skipBlanks] at hv
    exact .member hgoes (fun fuel frames => rfl) (Nat.le_refl _) (hvalue _ _ _ hv) ih

theorem Entries.skipsFrame {es : List (String × Value)}
    (hvalue : ∀ cur v cur', readValue depth cur = .ok (v, cur') → SkipsValue cur cur')
    (h : Entries depth first cur es cur') : SkipsFrame .object first cur cur' := by
  induction h with
  | done hnext =>
    obtain ⟨-, rest, hrest, rfl⟩ | ⟨_, _, ⟨⟩, -⟩ := nextKey_cases hnext
    exact .close hrest
  | entry hnext hcolon hv _ ih =>
    obtain ⟨⟨⟩, -⟩ | ⟨_, cur₁, ⟨⟩, hgoes, hkey⟩ := nextKey_cases hnext
    have hskim := skimKey_of_readKey hkey hcolon
    refine .member hgoes (fun fuel frames => ?_) (length_skimKey_le hskim) (hvalue _ _ _ hv) ih
    rw [skimFrom, hskim]
    rfl

theorem SkipsValue.ofFrame {c : Char} {rest : List Char} (hrest : cur.skipBlanks.rest = c :: rest)
    (hopen : ∀ fuel frames, skimFrom (fuel + 1) .value frames cur =
      skimFrom fuel (.next true) (frame :: frames) (cur.skipBlanks.step c rest))
    (h : SkipsFrame frame true (cur.skipBlanks.step c rest) cur') : SkipsValue cur cur' := by
  obtain ⟨n, hn, hcloses⟩ := h
  have hblanks := cur.length_skipBlanks_le
  have hstep := Cursor.length_step hrest
  refine ⟨n + 1, ?_, fun fuel frames => ?_⟩
  · simp only [↓reduceIte] at hn
    omega
  · rw [← Nat.add_assoc, hopen, hcloses]

theorem SkipsValue.scalar {v : Value} (h : readScalar cur.skipBlanks = .ok (v, cur')) :
    SkipsValue cur cur' := by
  have hskim := skimScalar_of_readScalar h
  have hlt := length_skimScalar_lt hskim
  have hblanks := cur.length_skipBlanks_le
  obtain ⟨hlist, hobject, -⟩ := readScalar_plain h
  refine ⟨1, by omega, fun fuel frames => ?_⟩
  -- neither of the brackets stands here, so that the last case of the step is taken
  simp only [skimFrom, hskim]
  rfl

/-- **Values that can be read can be skipped within any frames.** -/
theorem skipsValue_of_readValue {v : Value} (h : readValue depth cur = .ok (v, cur')) :
    SkipsValue cur cur' := by
  -- what stands inside an array or object is read with one bracket less to open
  induction depth generalizing cur v cur' with
  | zero =>
    cases reading_of_readValue h with
    | scalar hscalar => exact .scalar hscalar
  | succ depth ih =>
    cases reading_of_readValue h with
    | scalar hscalar => exact .scalar hscalar
    | array hrest hitems _ =>
      exact .ofFrame hrest (fun fuel frames => by simp [skimFrom, hrest])
        (hitems.skipsFrame fun _ _ _ => ih)
    | object hrest hentries _ =>
      exact .ofFrame hrest (fun fuel frames => by simp [skimFrom, hrest])
        (hentries.skipsFrame fun _ _ _ => ih)

end Machine

/-- **A value is skipped up to where it is read.** -/
theorem skimValue_of_readValue {depth : Nat} {cur cur' : Cursor} {v : Value}
    (h : readValue depth cur = .ok (v, cur')) : skimValue cur = .ok cur' := by
  obtain ⟨n, hn, hskips⟩ := skipsValue_of_readValue h
  have hfuel : 3 * cur.rest.length + 3 = 3 * cur.rest.length + 3 - n - 1 + 1 + n := by omega
  rw [skimValue, hfuel, hskips]
  rfl

end Json

end ContractGen
