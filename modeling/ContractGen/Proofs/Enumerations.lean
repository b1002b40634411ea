import ContractGen.Contract.Literals
import ContractGen.Model
import ContractGen.Proofs.FreeSuffix
import ContractGen.Proofs.Spelling

/-!
# Literals of enumerations

An enumeration of numbers has a literal for every number, however often the number stands in it. An
enumeration of texts has a literal for every value other than null, also for one that stands there
twice. In both the names of literals are chosen one after the other (`nameLiterals_spec`), so
they differ from each other and from the enumeration (`nameLiterals_apart`).

The names of numbers are known in full. The name of a number alone is `_` or `Minus` with its digits
(`memberName_numberHint`), and different numbers have different ones (`plainName_injective`). A mark
and a number after such a name give the name of no number, for a mark stands in none of them but at
its start (`not_mem_tail_plainName`). So the only name that can be in the way is that of the
enumeration, and only one number can have it: that one gets `_2` (`numericLiterals_eq`).

`enumeration_members` puts this together for the model that templates see.
-/

namespace ContractGen

open Json (Value)
open Identifier (IsChosen IsFirstFree)

namespace Json.Value

/-- The value is an integer of 64 bits with a sign. -/
def IsInt64 (v : Value) : Prop := ∃ n : Int64, v = .int n.toInt

theorem int64?_eq_some_iff {v : Value} {n : Int} :
    v.int64? = some n ↔ v = .int n ∧ v.IsInt64 := by
  constructor
  · intro h
    unfold int64? at h
    split at h
    · rename_i m
      split_ifs at h with hrange
      obtain rfl := Option.some.inj h
      simp only [Bool.and_eq_true, decide_eq_true_eq] at hrange
      refine ⟨rfl, Int64.ofInt m, ?_⟩
      rw [Int64.toInt_ofInt_of_le (by simpa using hrange.1) (by simpa using hrange.2)]
      rfl
    · cases h
  · rintro ⟨rfl, k, hk⟩
    obtain rfl : n = k.toInt := by simpa [int] using hk
    have hlow := k.le_toInt
    have hhigh := k.toInt_lt
    have hrange : (-(1 <<< 63 : Nat) ≤ k.toInt && k.toInt < (1 <<< 63 : Nat)) = true := by
      simpa using And.intro hlow hhigh
    simp only [int, int64?, hrange, if_true]

theorem mapM_int64?_eq_some_iff {values : List Value} {ns : List Int} :
    values.mapM int64? = some ns ↔ values = ns.map Value.int ∧ ∀ v ∈ values, v.IsInt64 := by
  induction values generalizing ns with
  | nil => cases ns <;> simp
  | cons v values ih =>
    simp only [List.mapM_cons, Option.bind_eq_bind, Option.bind_eq_some_iff, int64?_eq_some_iff, ih,
      Option.pure_def, Option.some.injEq]
    constructor
    · rintro ⟨n, ⟨rfl, hn⟩, rest, ⟨rfl, hrest⟩, rfl⟩
      exact ⟨rfl, List.forall_mem_cons.2 ⟨hn, hrest⟩⟩
    · rintro ⟨heq, hall⟩
      cases ns with
      | nil => cases heq
      | cons n ns =>
        obtain ⟨rfl, rfl⟩ : v = .int n ∧ values = ns.map Value.int := by simpa using heq
        obtain ⟨hn, hrest⟩ := List.forall_mem_cons.1 hall
        exact ⟨n, ⟨rfl, hn⟩, ns, ⟨rfl, hrest⟩, rfl⟩

theorem exists_map_int {values : List Value} (h : ∀ v ∈ values, v.IsInt64) :
    ∃ ns : List Int, values = ns.map Value.int := by
  induction values with
  | nil => exact ⟨[], rfl⟩
  | cons v values ih =>
    obtain ⟨⟨n, hn⟩, hrest⟩ := List.forall_mem_cons.1 h
    obtain ⟨ns, hns⟩ := ih hrest
    exact ⟨n.toInt :: ns, by rw [hn, hns, List.map_cons]⟩

end Json.Value

namespace Contract

/-! ### Which enumerations are numeric -/

theorem mem_present {values : List Value} {v : Value} :
    v ∈ present values ↔ v ∈ values ∧ v ≠ .null := by
  cases v <;> simp [present, Value.isNull]

theorem numbers?_eq_some_iff {values : List Value} {ns : List Int} :
    numbers? values = some ns ↔ ∃ all, all ≠ [] ∧ present values = all.map Value.int ∧
      (∀ v ∈ present values, v.IsInt64) ∧ ns = all.eraseDups := by
  have hnumbers : numbers? values = some ns ↔ ∃ all,
      (present values).mapM Value.int64? = some all ∧ all ≠ [] ∧ ns = all.eraseDups := by
    unfold numbers?
    split
    · rename_i hnil
      simp [hnil]
    · rename_i all hne hall
      have : all ≠ [] := hne
      simp [hall, this, eq_comm]
    · rename_i hnone
      simp [hnone]
  simp only [hnumbers, Value.mapM_int64?_eq_some_iff]
  constructor
  · rintro ⟨all, ⟨heq, hint⟩, hne, hns⟩
    exact ⟨all, hne, heq, hint, hns⟩
  · rintro ⟨all, hne, heq, hint, hns⟩
    exact ⟨all, ⟨heq, hint⟩, hne, hns⟩

/-! ### The order of numbers -/

/-- `firsts` are the members of `all`, each once, in the order in which they come up. -/
structure FirstOccurrences (all firsts : List Int) : Prop where
  /-- They are the same numbers. -/
  mem : ∀ n, n ∈ firsts ↔ n ∈ all
  /-- What comes up earlier stands earlier. -/
  order : firsts.Pairwise fun m n => all.idxOf m < all.idxOf n

theorem FirstOccurrences.nodup {all firsts : List Int} (h : FirstOccurrences all firsts) :
    firsts.Nodup := by
  refine h.order.imp fun hlt => ?_
  rintro rfl
  exact lt_irrefl _ hlt

theorem idxOf_lt_of_filter {p : Int → Bool} {ns : List Int} {m n : Int} (hn : p n = true)
    (h : (ns.filter p).idxOf m < (ns.filter p).idxOf n) : ns.idxOf m < ns.idxOf n := by
  induction ns with
  | nil => simp at h
  | cons k ns ih =>
    by_cases hkm : k = m
    · -- the earlier one comes up right here, and the other is another one
      have hkn : k ≠ n := by
        rintro rfl
        rw [hkm] at h
        exact absurd h (lt_irrefl _)
      rw [hkm, List.idxOf_cons_self, List.idxOf_cons_ne _ (hkm ▸ hkn)]
      omega
    · by_cases hk : p k = true
      · rw [List.filter_cons_of_pos hk] at h
        by_cases hkn : k = n
        · rw [hkn, List.idxOf_cons_self] at h
          omega
        · rw [List.idxOf_cons_ne _ hkm, List.idxOf_cons_ne _ hkn] at h ⊢
          exact Nat.succ_lt_succ (ih (Nat.lt_of_succ_lt_succ h))
      · have hkn : k ≠ n := fun heq => hk (heq ▸ hn)
        rw [List.filter_cons_of_neg hk] at h
        rw [List.idxOf_cons_ne _ hkm, List.idxOf_cons_ne _ hkn]
        exact Nat.succ_lt_succ (ih h)

theorem firstOccurrences_eraseDups (all : List Int) : FirstOccurrences all all.eraseDups := by
  refine ⟨fun n => List.mem_eraseDups, ?_⟩
  -- the rest of the list loses what stands at its head, so the induction is on the length
  induction hlen : all.length using Nat.strong_induction_on generalizing all with
  | _ len ih =>
    cases all with
    | nil => simp
    | cons k rest =>
      have hshort : (rest.filter fun m => !m == k).length < len := by
        have := List.length_filter_le (fun m => !m == k) rest
        simp only [List.length_cons] at hlen
        omega
      have hmem : ∀ m ∈ (rest.filter fun m => !m == k).eraseDups, (!m == k) = true :=
        fun m hm => (List.mem_filter.1 (List.mem_eraseDups.1 hm)).2
      have hne : ∀ m ∈ (rest.filter fun m => !m == k).eraseDups, k ≠ m := by
        intro m hm
        have hmk : m ≠ k := by simpa using hmem m hm
        exact hmk.symm
      rw [List.eraseDups_cons, List.pairwise_cons]
      refine ⟨fun m hm => ?_, ?_⟩
      · rw [List.idxOf_cons_self, List.idxOf_cons_ne _ (hne m hm)]
        omega
      · refine (ih _ hshort _ rfl).imp_of_mem fun hm hn hlt => ?_
        rw [List.idxOf_cons_ne _ (hne _ hm), List.idxOf_cons_ne _ (hne _ hn)]
        exact Nat.succ_lt_succ (idxOf_lt_of_filter (hmem _ hn) hlt)

/-! ### Names of numbers -/

/-- The name of a number alone. -/
def plainName (n : Int) : String := (if n < 0 then "Minus" else "_") ++ toString n.natAbs

theorem memberName_toString (k : Nat) :
    Identifier.memberName (toString k) none = "_" ++ toString k := by
  have hdigits : ∀ d ∈ (toString k).toList, d.isDigit = true :=
    fun d hd => Identifier.isDigit_of_mem_toString hd
  rw [← String.toList_inj, Identifier.memberName, String.toList_ofList, String.toList_append]
  cases hchars : (toString k).toList with
  | nil => simp at hchars
  | cons c cs => rw [Identifier.memberChars_digits (hchars ▸ hdigits)]; rfl

theorem memberName_minus (k : Nat) :
    Identifier.memberName ("Minus" ++ toString k) none = "Minus" ++ toString k := by
  have hdigits : ∀ d ∈ (toString k).toList, Text.isAlphanumeric d = true :=
    fun d hd => Identifier.isAlphanumeric_of_isDigit (Identifier.isDigit_of_mem_toString hd)
  have hletters : ∀ d ∈ "Minus".toList, Text.isAlphanumeric d = true :=
    List.all_eq_true.1 (by decide +kernel)
  have hchars : ("Minus" ++ toString k).toList =
      'M' :: ('i' :: 'n' :: 'u' :: 's' :: (toString k).toList) := by
    rw [String.toList_append]; rfl
  have hword : ∀ d ∈ 'M' :: ('i' :: 'n' :: 'u' :: 's' :: (toString k).toList),
      Text.isAlphanumeric d = true := by
    rw [← hchars, String.toList_append]
    exact List.forall_mem_append.2 ⟨hletters, hdigits⟩
  have hletter : Text.isNumeric 'M' = false := by decide +kernel
  rw [← String.toList_inj, Identifier.memberName, String.toList_ofList, hchars,
    Identifier.memberChars_word hword (Text.upper_of_lt (by decide))]
  simp [Identifier.guardFirst, hletter]

theorem memberName_numberHint (n : Int) :
    Identifier.memberName (numberHint n) none = plainName n := by
  rw [plainName, numberHint]
  split_ifs with hneg
  · exact memberName_minus n.natAbs
  · obtain ⟨k, rfl⟩ := Int.eq_ofNat_of_zero_le (Int.not_lt.1 hneg)
    exact memberName_toString k

/-- A mark stands in the name of a number only at its start. -/
theorem not_mem_tail_plainName (n : Int) : '_' ∉ (plainName n).toList.tail := by
  rw [plainName, String.toList_append]
  split_ifs <;> simp

theorem plainName_injective {m n : Int} (h : plainName m = plainName n) : m = n := by
  have hhead := congrArg (fun s => s.toList.head?) h
  unfold plainName at h hhead
  split_ifs at h hhead with hm hn hn
  · have := Identifier.append_toString_inj.1 h
    omega
  · simp at hhead
  · simp at hhead
  · have := Identifier.append_toString_inj.1 h
    omega

/-- The name of a number in an enumeration: with a mark and a number if the enumeration has its
name. -/
def numberName (typeName : String) (n : Int) : String :=
  if plainName n = typeName then plainName n ++ "_2" else plainName n

theorem plainName_ne_marked (m n : Int) : plainName m ≠ plainName n ++ "_2" := by
  intro h
  refine not_mem_tail_plainName m ?_
  rw [h, String.toList_append, List.tail_append_of_ne_nil]
  · simp
  · simp [plainName]

theorem eq_of_numberName_eq {typeName : String} {m n : Int}
    (h : numberName typeName m = plainName n) : m = n := by
  unfold numberName at h
  split_ifs at h
  · exact absurd h.symm (plainName_ne_marked n m)
  · exact plainName_injective h

/-- Only one number can have a mark: that of which the enumeration has the name. -/
theorem eq_of_marked {typeName : String} {m n : Int} (hm : numberName typeName m ≠ plainName m)
    (hn : numberName typeName n ≠ plainName n) : m = n := by
  have hplain : ∀ k, numberName typeName k ≠ plainName k → plainName k = typeName := by
    intro k hk
    by_contra hne
    exact hk (if_neg hne)
  exact plainName_injective ((hplain m hm).trans (hplain n hn).symm)

theorem freeName_marked {plain : String} {used : List String}
    (hmarked : plain ∈ used → plain ++ "_2" ∉ used) :
    Identifier.freeName plain (plain ++ "_") 2 used =
      if plain ∈ used then plain ++ "_2" else plain := by
  obtain ⟨hfree, heq⟩ | ⟨hmem, k, hk, heq, -, hbelow⟩ :=
    Identifier.isChosen_freeName plain (plain ++ "_") 2 used
  · rw [heq, if_neg hfree]
  · have htwo : plain ++ "_" ++ toString 2 = plain ++ "_2" := String.append_assoc
    -- two is free, so no larger number is needed
    have hk2 : k = 2 := by
      by_contra hne
      exact hmarked hmem (htwo ▸ hbelow 2 le_rfl (by omega))
    rw [heq, if_pos hmem, hk2, htwo]

/-- **The literals of numbers**, where only the name of the enumeration is in the way. -/
theorem nameLiterals_numbers {typeName : String} {used : List String} {ns : List Int}
    (hns : ns.Nodup)
    (hused : ∀ n ∈ ns, (plainName n ∈ used ↔ plainName n = typeName) ∧
      (plainName n = typeName → plainName n ++ "_2" ∉ used)) :
    nameLiterals "_" used (ns.map fun n => (numberHint n, s!"{n}", n)) =
      ns.map fun n => ⟨numberName typeName n, toString n, n⟩ := by
  induction ns generalizing used with
  | nil => rfl
  | cons n ns ih =>
    obtain ⟨hn, hrest⟩ := List.nodup_cons.1 hns
    obtain ⟨hplain, hmarked⟩ := hused n List.mem_cons_self
    have hname : Identifier.freeName (Identifier.memberName (numberHint n) none)
        (Identifier.memberName (numberHint n) none ++ "_") 2 used = numberName typeName n := by
      rw [memberName_numberHint, freeName_marked (fun hmem => hmarked (hplain.1 hmem)), numberName]
      simp only [hplain]
    simp only [List.map_cons, nameLiterals, hname]
    refine congrArg₂ List.cons rfl (ih hrest fun m hm => ?_)
    obtain ⟨hplain', hmarked'⟩ := hused m (List.mem_cons_of_mem _ hm)
    have hne : m ≠ n := fun heq => hn (heq ▸ hm)
    have hother : plainName m ≠ numberName typeName n :=
      fun heq => hne (eq_of_numberName_eq heq.symm).symm
    have hother' : plainName m ++ "_2" ≠ numberName typeName n := by
      unfold numberName
      split_ifs
      · exact fun heq => hne (plainName_injective ((String.append_left_inj _).1 heq))
      · exact (plainName_ne_marked n m).symm
    simp only [List.mem_cons, hother, hother', false_or]
    exact ⟨hplain', hmarked'⟩

theorem numericLiterals_eq (typeName : String) {ns : List Int} (hns : ns.Nodup) :
    numericLiterals typeName ns = ns.map fun n => ⟨numberName typeName n, toString n, n⟩ := by
  refine nameLiterals_numbers hns fun n _ => ⟨List.mem_singleton, fun hplain hmem => ?_⟩
  exact plainName_ne_marked n n (hplain.trans (List.mem_singleton.1 hmem).symm)

/-! ### Names of literals -/

theorem length_nameLiterals (mark : String) (used : List String)
    (entries : List (String × String × Int)) :
    (nameLiterals mark used entries).length = entries.length := by
  induction entries generalizing used with
  | nil => rfl
  | cons entry rest ih => simp [nameLiterals, ih]

/-- What happens at each position: text and number are those of the entry, and the name of its hint
is kept if it is free, and otherwise gets the mark and the smallest number from two on. -/
theorem nameLiterals_spec {mark : String} {used : List String}
    {entries : List (String × String × Int)} {i : Nat} {hint text : String} {number : Int}
    {l : Literal} (hentry : entries[i]? = some (hint, text, number))
    (hl : (nameLiterals mark used entries)[i]? = some l) :
    l.text = text ∧ l.number = number ∧
      IsChosen (Identifier.memberName hint none) (Identifier.memberName hint none ++ mark) 2
        (((nameLiterals mark used entries).take i).map Literal.name ++ used)
        (((nameLiterals mark used entries).take i).map Literal.name ++ used) l.name := by
  induction entries generalizing used i with
  | nil => simp at hentry
  | cons entry rest ih =>
    obtain ⟨hint₀, text₀, number₀⟩ := entry
    cases i with
    | zero =>
      obtain ⟨rfl, rfl, rfl⟩ : hint₀ = hint ∧ text₀ = text ∧ number₀ = number := by
        simpa using hentry
      obtain rfl := by simpa only [nameLiterals, List.getElem?_cons_zero, Option.some.injEq]
        using hl
      exact ⟨rfl, rfl, Identifier.isChosen_freeName _ _ 2 used⟩
    | succ i =>
      simp only [nameLiterals, List.getElem?_cons_succ, List.take_succ_cons, List.map_cons]
        at hentry hl ⊢
      obtain ⟨htext, hnumber, hchosen⟩ := ih hentry hl
      -- the first name has moved from those before to those used
      have hmem : ∀ (x name : String) (before : List String),
          x ∈ before ++ name :: used ↔ x ∈ name :: before ++ used := by
        intro x name before
        simp only [List.mem_append, List.mem_cons]; tauto
      exact ⟨htext, hnumber, hchosen.congr (fun x => hmem x _ _) fun x => hmem x _ _⟩

theorem nameLiterals_apart (mark : String) (used : List String)
    (entries : List (String × String × Int)) :
    ((nameLiterals mark used entries).map Literal.name).Nodup ∧
      ∀ name ∈ (nameLiterals mark used entries).map Literal.name, name ∉ used := by
  refine Identifier.nodup_of_not_mem_take fun i name hname => ?_
  obtain ⟨l, hl, rfl⟩ := by simpa using hname
  have hi : i < entries.length := by
    rw [← length_nameLiterals mark used entries]
    exact (List.getElem?_eq_some_iff.1 hl).1
  obtain ⟨-, -, hchosen⟩ := nameLiterals_spec (List.getElem?_eq_getElem hi) hl
  rw [← List.map_take]
  exact hchosen.not_mem (List.Subset.refl _)

/-! ### Enumerations -/

/-- The values of a numeric enumeration: there is one other than null, and all of those are
integers of 64 bits. -/
def IsNumeric (values : List Value) : Prop :=
  (∃ v ∈ values, v ≠ .null) ∧ ∀ v ∈ values, v ≠ .null → v.IsInt64

theorem isNumeric_iff {values : List Value} :
    IsNumeric values ↔ present values ≠ [] ∧ ∀ v ∈ present values, v.IsInt64 := by
  simp only [IsNumeric, ← List.length_pos_iff, List.length_pos_iff_exists_mem, mem_present, and_imp]

/-- **The two kinds of enumerations.** -/
theorem ofValues_cases (typeName : String) (doc : List String) (values : List Value) :
    (IsNumeric values ∧ ∃ all firsts, present values = all.map Value.int ∧
      FirstOccurrences all firsts ∧ Enumeration.ofValues typeName doc values =
        ⟨doc, false, firsts.map fun n => ⟨numberName typeName n, toString n, n⟩⟩) ∨
    (¬ IsNumeric values ∧
      Enumeration.ofValues typeName doc values = ⟨doc, true, textLiterals typeName values⟩) := by
  cases hnumbers : numbers? values with
  | some ns =>
    obtain ⟨all, hne, hpresent, hint, rfl⟩ := numbers?_eq_some_iff.1 hnumbers
    have hfirsts := firstOccurrences_eraseDups all
    have hnumeric : IsNumeric values := isNumeric_iff.2 ⟨by simpa [hpresent] using hne, hint⟩
    refine Or.inl ⟨hnumeric, all, all.eraseDups, hpresent, hfirsts, ?_⟩
    simp only [Enumeration.ofValues, hnumbers, numericLiterals_eq typeName hfirsts.nodup]
  | none =>
    refine Or.inr ⟨fun hnumeric => ?_, by rw [Enumeration.ofValues, hnumbers]⟩
    obtain ⟨hne, hint⟩ := isNumeric_iff.1 hnumeric
    obtain ⟨all, hall⟩ := Value.exists_map_int hint
    have hsome := numbers?_eq_some_iff.2
      ⟨all, fun hnil => hne (by simp [hall, hnil]), hall, hint, rfl⟩
    rw [hnumbers] at hsome
    cases hsome

/-- The text of a literal: a string shows itself, and any other value is shown as it is written in
JSON. -/
inductive Shows : Value → String → Prop where
  /-- A string has no quotes around it and no escapes in it. -/
  | string (s : String) : Shows (.string s) s
  /-- Numbers, truth values, arrays and objects are written out. -/
  | other {v : Value} : (∀ s, v ≠ .string s) → Shows v v.text

theorem shows_literalText (v : Value) : Shows v (literalText v) := by
  cases v with
  | string s => exact .string s
  | _ => exact .other (by simp)

theorem textLiterals_spec {typeName : String} {values : List Value} {i : Nat} {v : Value}
    {l : Literal} (hv : (present values)[i]? = some v)
    (hl : (textLiterals typeName values)[i]? = some l) :
    l.text = literalText v ∧ l.number = i ∧
      IsFirstFree (Identifier.memberName (literalText v) none)
        (((textLiterals typeName values).take i).map Literal.name ++ [typeName]) l.name := by
  have hentry : ((present values).mapIdx fun i v => (literalText v, literalText v, (i : Int)))[i]? =
      some (literalText v, literalText v, (i : Int)) := by simp [hv]
  obtain ⟨htext, hnumber, hchosen⟩ := nameLiterals_spec hentry hl
  rw [String.append_empty] at hchosen
  exact ⟨htext, hnumber, hchosen⟩

theorem literals_apart (typeName : String) (doc : List String) (values : List Value) :
    ((Enumeration.ofValues typeName doc values).literals.map Literal.name).Nodup ∧
      typeName ∉ (Enumeration.ofValues typeName doc values).literals.map Literal.name := by
  have hapart : ∀ mark entries,
      ((nameLiterals mark [typeName] entries).map Literal.name).Nodup ∧
        typeName ∉ (nameLiterals mark [typeName] entries).map Literal.name := by
    intro mark entries
    obtain ⟨hnodup, hfree⟩ := nameLiterals_apart mark [typeName] entries
    exact ⟨hnodup, fun hmem => hfree typeName hmem List.mem_cons_self⟩
  unfold Enumeration.ofValues
  split
  · exact hapart "_" _
  · exact hapart "" _

/-- Numbers with the smallest one, one that stands twice, and one whose name the enumeration has. -/
example :
    (Enumeration.ofValues "_5" []
      [.int 5, .null, .int (-9223372036854775808), .int 52, .int 5]).literals =
    [⟨"_5_2", "5", 5⟩, ⟨"Minus9223372036854775808", "-9223372036854775808", -9223372036854775808⟩,
      ⟨"_52", "52", 52⟩] := by decide +kernel

/-- Texts: a string with quotes in it, a value that shows like a string beside it, and a list. -/
example :
    (Model.ofEnumeration "Mode" (Enumeration.ofValues "Mode" []
      [.string "say \"on\"", .bool true, .null, .string "true",
        .array [.int (-1), .string "a"]])).members =
    [⟨"SayOn", "\"say \\\"on\\\"\"", 0⟩, ⟨"True", "\"true\"", 1⟩, ⟨"True2", "\"true\"", 2⟩,
      ⟨"_1A", "\"[-1,\\\"a\\\"]\"", 3⟩] := by decide +kernel

end Contract

end ContractGen
