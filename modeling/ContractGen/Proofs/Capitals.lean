import ContractGen.Text.Alphanumeric
import ContractGen.Text.Upper
import Mathlib.Data.List.Basic

/-!
# Capitals

A *capital* is a character that upper case leaves as it is. The upper case of a letter or a number
can be several characters, some of them marks that no name keeps. `exists_capital` says what names
rely on: a letter or a number is among them, and the first such is a capital.

Two sets of code points decide this: those whose upper case is something else (`changingCodes`), and
those that come first in such an upper case (`leadingCodes`). The tables hold the second among the
letters and apart from the first. To see this for all characters at once, a set of code points is
taken as the number with just these bits (`Ranges.mask`, `codeMask`), and the sets are compared by
operations on the bits of whole numbers.
-/

namespace ContractGen

namespace Text

/-! ### Sets of code points as numbers -/

/-- The number with the bits of a table's code points. Like the search in the table, a range hides
what the ranges after it hold below its start. -/
def Ranges.mask : Ranges → Nat
  | [] => 0
  | (lo, hi) :: rest => ((mask rest >>> lo) ||| (1 <<< (hi + 1 - lo) - 1)) <<< lo

theorem Ranges.testBit_mask (ranges : Ranges) (n : Nat) :
    ranges.mask.testBit n = ranges.has n := by
  induction ranges with
  | nil => simp [mask, has]
  | cons range rest ih =>
    obtain ⟨lo, hi⟩ := range
    rw [mask, has, Nat.testBit_shiftLeft, Nat.testBit_or, Nat.testBit_shiftRight,
      Nat.one_shiftLeft, Nat.testBit_two_pow_sub_one]
    by_cases hlo : n < lo
    · simp [hlo, Nat.not_le.2 hlo]
    · have hle : lo ≤ n := Nat.not_lt.1 hlo
      have hhi : n - lo < hi + 1 - lo ↔ n ≤ hi := by omega
      rw [if_neg hlo, Nat.add_sub_cancel' hle, ih, decide_eq_true hle, Bool.true_and,
        Bool.or_comm, decide_eq_decide.2 hhi]

/-- The number with the bits of the given code points. -/
def codeMask (codes : List Nat) : Nat := codes.foldr (fun n mask => 1 <<< n ||| mask) 0

theorem testBit_codeMask {codes : List Nat} {n : Nat} :
    (codeMask codes).testBit n = true ↔ n ∈ codes := by
  induction codes with
  | nil => simp [codeMask]
  | cons code codes ih =>
    rw [codeMask] at ih ⊢
    rw [List.foldr_cons, Nat.testBit_or, Bool.or_eq_true, ih, Nat.one_shiftLeft,
      Nat.testBit_two_pow, decide_eq_true_iff, List.mem_cons, eq_comm]

theorem testBit_of_and_eq {codes : List Nat} {mask n : Nat}
    (h : codeMask codes &&& mask = codeMask codes) (hn : n ∈ codes) : mask.testBit n = true := by
  have hbit := testBit_codeMask.2 hn
  rw [← h, Nat.testBit_and, Bool.and_eq_true] at hbit
  exact hbit.2

/-! ### Code points that change -/

/-- The members of a run. -/
def CaseRun.codes (r : CaseRun) : List Nat :=
  List.range' r.first ((r.last - r.first) / r.step + 1) r.step

theorem CaseRun.mem_codes {r : CaseRun} {n : Nat} (h : r.has n = true) : n ∈ r.codes := by
  simp only [has, Bool.and_eq_true, decide_eq_true_eq, beq_iff_eq] at h
  obtain ⟨⟨hfirst, hlast⟩, hstep⟩ := h
  refine List.mem_range'.2 ⟨(n - r.first) / r.step, ?_, ?_⟩
  · exact Nat.lt_succ_of_le (Nat.div_le_div_right (Nat.sub_le_sub_right hlast _))
  · rw [Nat.mul_div_cancel' (Nat.dvd_of_mod_eq_zero hstep)]
    omega

/-- The code points whose upper case is not just themselves. -/
def changingCodes : List Nat := longUpper.map Prod.fst ++ caseRuns.flatMap CaseRun.codes

/-- The code points that come first in the upper case of another. -/
def leadingCodes : List Nat :=
  longUpper.map (fun entry => entry.2.headD 0) ++
    caseRuns.flatMap fun r => r.codes.map fun n : Nat => (n + r.shift).toNat

theorem upper_of_not_mem {c : Char} (h : c.toNat ∉ changingCodes) : upper c = [c] := by
  rw [changingCodes, List.mem_append, not_or] at h
  have hlookup : longUpper.lookup c.toNat = none := by
    refine List.lookup_eq_none_iff.2 fun entry hentry => bne_iff_ne.2 fun heq => h.1 ?_
    exact heq ▸ List.mem_map_of_mem hentry
  have hfind : caseRuns.find? (·.has c.toNat) = none := by
    refine List.find?_eq_none.2 fun run hrun hhas => h.2 ?_
    exact List.mem_flatMap.2 ⟨run, hrun, CaseRun.mem_codes hhas⟩
  simp only [upper, hlookup, hfind]

theorem upper_of_lt {c : Char} (h : c.toNat < 0x61) : upper c = [c] := by
  have hall : ∀ n ∈ changingCodes, 0x61 ≤ n := by
    simpa using List.all_eq_true.1 (by decide +kernel : (changingCodes.all (0x61 ≤ ·)) = true)
  exact upper_of_not_mem fun hmem => Nat.not_le.2 h (hall _ hmem)

/-! ### Capitals -/

/-- The code points that are characters. -/
def charRanges : Ranges := [(0, 0xd7ff), (0xe000, 0x10ffff)]

theorem isValidChar_of_has {n : Nat} (h : charRanges.has n = true) : n.isValidChar := by
  have hranges : n ≤ 0xd7ff ∨ 0xe000 ≤ n ∧ n ≤ 0x10ffff := by
    simpa [charRanges, Ranges.has] using h
  rw [Nat.isValidChar]
  omega

theorem capital_of_mem_leadingCodes {n : Nat} (h : n ∈ leadingCodes) :
    n.isValidChar ∧ alphabeticRanges.has n = true ∧ n ∉ changingCodes := by
  have htables : codeMask leadingCodes &&& charRanges.mask = codeMask leadingCodes ∧
      codeMask leadingCodes &&& alphabeticRanges.mask = codeMask leadingCodes ∧
      codeMask leadingCodes &&& codeMask changingCodes = 0 := by decide +kernel
  obtain ⟨hchars, hletters, hchanging⟩ := htables
  refine ⟨isValidChar_of_has ?_, ?_, fun hmem => ?_⟩
  · rw [← Ranges.testBit_mask, testBit_of_and_eq hchars h]
  · rw [← Ranges.testBit_mask, testBit_of_and_eq hletters h]
  · have hboth : (codeMask leadingCodes &&& codeMask changingCodes).testBit n = true := by
      rw [Nat.testBit_and, testBit_codeMask.2 h, testBit_codeMask.2 hmem, Bool.and_self]
    rw [hchanging, Nat.zero_testBit] at hboth
    cases hboth

theorem upper_of_mem_leadingCodes {n : Nat} (h : n ∈ leadingCodes) :
    isAlphanumeric (Char.ofNat n) = true ∧ upper (Char.ofNat n) = [Char.ofNat n] := by
  obtain ⟨hvalid, hletter, hchanging⟩ := capital_of_mem_leadingCodes h
  have hcode : (Char.ofNat n).toNat = n := by rw [Char.ofNat, dif_pos hvalid]; rfl
  refine ⟨?_, upper_of_not_mem (hcode.symm ▸ hchanging)⟩
  rw [isAlphanumeric, isAlphabetic, hcode, hletter, Bool.true_or]

/-- An upper case is the character itself, or starts with a code point of `leadingCodes`. -/
theorem upper_cases (c : Char) :
    upper c = [c] ∨ ∃ n ∈ leadingCodes, ∃ rest, upper c = Char.ofNat n :: rest := by
  rw [upper]
  split
  · rename_i codes hlookup
    have hentry : (c.toNat, codes) ∈ longUpper := by
      obtain ⟨before, after, hsplit, -⟩ := List.lookup_eq_some_iff.1 hlookup
      rw [hsplit]
      exact List.mem_append_right _ List.mem_cons_self
    have hmem : codes.headD 0 ∈ leadingCodes :=
      List.mem_append_left _ (List.mem_map_of_mem (f := fun entry => entry.2.headD 0) hentry)
    cases codes with
    | nil =>
      -- an empty entry would make the code point zero a letter
      have hzero := (capital_of_mem_leadingCodes hmem).2.1
      exact absurd hzero (by decide)
    | cons n codes => exact .inr ⟨n, hmem, codes.map Char.ofNat, rfl⟩
  · split
    · rename_i run hfind
      refine .inr ⟨(c.toNat + run.shift).toNat, List.mem_append_right _ ?_, [], rfl⟩
      have hcode : c.toNat ∈ run.codes :=
        CaseRun.mem_codes (List.find?_some (p := fun r : CaseRun => r.has c.toNat) hfind)
      exact List.mem_flatMap.2 ⟨run, List.mem_of_find?_eq_some hfind,
        List.mem_map_of_mem (f := fun n : Nat => (n + run.shift).toNat) hcode⟩
    · exact .inl rfl

/-- **Upper case keeps a capital.** There are letters or numbers in the upper case of a letter or a
number, and the first of them is a capital. -/
theorem exists_capital {c : Char} (h : isAlphanumeric c = true) :
    ∃ d rest, (upper c).filter isAlphanumeric = d :: rest ∧ upper d = [d] := by
  obtain hself | ⟨n, hn, rest, hupper⟩ := upper_cases c
  · exact ⟨c, [], by rw [hself, List.filter_cons_of_pos h, List.filter_nil], hself⟩
  · obtain ⟨hletter, hcapital⟩ := upper_of_mem_leadingCodes hn
    exact ⟨Char.ofNat n, rest.filter isAlphanumeric,
      by rw [hupper, List.filter_cons_of_pos hletter], hcapital⟩

end Text

end ContractGen
