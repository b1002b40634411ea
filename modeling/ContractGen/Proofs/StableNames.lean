import ContractGen.Proofs.ResolverRuns
import ContractGen.Proofs.Spelling

/-!
# Type names that stay

Making a type name of a type name gives it back. The name is a *word*, letters and numbers with a
capital in front (`IsWord`), and `_` stands before a word that does not start with a letter
(`IsTypeName`). A second time the `_` is dropped like any other sign, upper case does nothing to
the capital, and `_` is put back. So a type name stays as it is at the start of every hint, and
what follows is joined to it as to any word (`IsTypeName.stays`).

The names that a resolver gives are type names with a number or without. Digits go on with the
word, so these names stay, too (`isTypeName_nameOf`). `typeName_stable` puts this together. All it
needs of the tables of characters is `Text.exists_capital`, and that digits are numbers and `_` is
neither letter nor number.
-/

namespace ContractGen

open Schema (Graph)

namespace Identifier

/-! ### Words -/

/-- Letters and numbers, at least one, of which the first is a capital. -/
def IsWord : List Char → Prop
  | [] => False
  | c :: cs => Text.upper c = [c] ∧ ∀ d ∈ c :: cs, Text.isAlphanumeric d = true

theorem IsWord.ne_nil {word : List Char} (h : IsWord word) : word ≠ [] := by
  rintro rfl
  exact h

theorem upper_of_keptChars {cs : List Char} {d : Char} {rest : List Char}
    (h : keptChars true cs = d :: rest) : Text.upper d = [d] := by
  induction cs with
  | nil => cases h
  | cons c cs ih =>
    cases hc : Text.isAlphanumeric c with
    | false => exact ih (keptChars_cons_of_sign hc true cs ▸ h)
    | true =>
      -- the first letter or number of the text: its upper case leads
      obtain ⟨e, more, hupper, hcapital⟩ := Text.exists_capital hc
      rw [keptChars_true_cons hc, hupper] at h
      obtain rfl : e = d := (List.cons.inj h).1
      exact hcapital

theorem isWord_keptChars {cs : List Char} (h : keptChars true cs ≠ []) :
    IsWord (keptChars true cs) := by
  have hletters : ∀ d ∈ keptChars true cs, Text.isAlphanumeric d = true :=
    fun d hd => (List.mem_filter.1 hd).2
  cases hkept : keptChars true cs with
  | nil => exact absurd hkept h
  | cons d rest => exact ⟨upper_of_keptChars hkept, hkept ▸ hletters⟩

/-! ### Words are kept -/

theorem keptChars_false_append {cs : List Char} (h : ∀ c ∈ cs, Text.isAlphanumeric c = true)
    (more : List Char) : keptChars false (cs ++ more) = cs ++ keptChars false more := by
  induction cs with
  | nil => rfl
  | cons c cs ih =>
    rw [List.forall_mem_cons] at h
    rw [List.cons_append, keptChars_false_cons h.1, ih h.2, List.cons_append]

theorem keptChars_false_of_alphanumeric {cs : List Char}
    (h : ∀ c ∈ cs, Text.isAlphanumeric c = true) : keptChars false cs = cs := by
  simpa [keptChars, joinWords] using keptChars_false_append h []

/-- A word at the start of a text is kept as it is, and the rest goes on with it. -/
theorem IsWord.keptChars_append {word : List Char} (h : IsWord word) (more : List Char) :
    keptChars true (word ++ more) = word ++ keptChars false more := by
  cases word with
  | nil => exact h.elim
  | cons c cs =>
    obtain ⟨hcapital, hletters⟩ := h
    rw [List.forall_mem_cons] at hletters
    rw [List.cons_append, keptChars_true_cons hletters.1, hcapital,
      List.filter_cons_of_pos hletters.1, List.filter_nil, keptChars_false_append hletters.2]
    rfl

theorem keptChars_guardFirst (p : Char → Bool) (cs more : List Char) :
    keptChars true (guardFirst p cs ++ more) = keptChars true (cs ++ more) := by
  cases cs with
  | nil => rfl
  | cons c cs =>
    rw [guardFirst]
    split_ifs
    · exact keptChars_cons_of_sign (by decide) true _
    · rfl

theorem guardFirst_append (p : Char → Bool) {cs : List Char} (h : cs ≠ []) (more : List Char) :
    guardFirst p (cs ++ more) = guardFirst p cs ++ more := by
  cases cs with
  | nil => exact absurd rfl h
  | cons c cs =>
    rw [List.cons_append, guardFirst, guardFirst]
    split_ifs <;> rfl

/-! ### Type names -/

/-- Whether a name is a word, after `_` if the word does not start with a letter. -/
def IsTypeName (name : String) : Prop :=
  ∃ word, IsWord word ∧ name.toList = guardFirst (fun c => !Text.isAlphabetic c) word

theorem isTypeName_of_typeName? {hint name : String} (h : typeName? hint = some name) :
    IsTypeName name := by
  obtain ⟨hkept, hname⟩ := typeName?_eq_some_iff.1 h
  exact ⟨keptChars true hint.toList, isWord_keptChars hkept, hname⟩

/-- Whether every hint that starts with `name` gives a type name that starts with it; letters and
numbers that follow in the hint follow in the type name. -/
def Stays (name : String) : Prop :=
  ∀ more : String, ∃ rest, typeName? (name ++ more) = some (name ++ rest) ∧
    ((∀ c ∈ more.toList, Text.isAlphanumeric c = true) → rest = more)

theorem Stays.typeName?_append {name more : String} (h : Stays name)
    (hmore : ∀ c ∈ more.toList, Text.isAlphanumeric c = true) :
    typeName? (name ++ more) = some (name ++ more) := by
  obtain ⟨rest, hname, hrest⟩ := h more
  rw [hname, hrest hmore]

/-- What stays is its own type name: nothing is a text that may follow. -/
theorem Stays.typeName?_eq {name : String} (h : Stays name) : typeName? name = some name := by
  have hnothing : ∀ c ∈ "".toList, Text.isAlphanumeric c = true := by simp
  simpa using h.typeName?_append hnothing

namespace IsTypeName

variable {name : String}

/-- **A type name stays** at the start of a hint, and what follows it is joined to it. -/
theorem stays (h : IsTypeName name) : Stays name := by
  obtain ⟨word, hword, hname⟩ := h
  intro more
  have hkept : keptChars true (name ++ more).toList = word ++ keptChars false more.toList := by
    rw [String.toList_append, hname, keptChars_guardFirst, hword.keptChars_append]
  refine ⟨String.ofList (keptChars false more.toList), typeName?_eq_some_iff.2 ⟨?_, ?_⟩, ?_⟩
  · rw [hkept]
    exact List.append_ne_nil_of_left_ne_nil hword.ne_nil _
  · rw [typeChars_eq, hkept, guardFirst_append _ hword.ne_nil, String.toList_append, hname,
      String.toList_ofList]
  · intro hmore
    rw [keptChars_false_of_alphanumeric hmore, String.ofList_toList]

theorem append_word (h : IsTypeName name) {more : String}
    (hmore : ∀ c ∈ more.toList, Text.isAlphanumeric c = true) : IsTypeName (name ++ more) :=
  isTypeName_of_typeName? (h.stays.typeName?_append hmore)

theorem of_isFirstFree {c : String} {taken : List String} (hc : IsTypeName c)
    (h : IsFirstFree c taken name) : IsTypeName name := by
  obtain ⟨-, rfl⟩ | ⟨-, k, -, rfl, -, -⟩ := h
  · exact hc
  · exact hc.append_word fun d hd => isAlphanumeric_of_isDigit (isDigit_of_mem_toString hd)

end IsTypeName

end Identifier

open Identifier

/-- All names that a resolver has given are type names. -/
theorem Resolver.isTypeName_nameOf {g : Graph} {ops : List Operation} {r : Resolver}
    (h : Operation.run g {} ops = some r) :
    ∀ i name, r.nameOf i = some name → IsTypeName name := by
  refine (Operation.run_grows h).forall_nameOf ?_ (by simp [Resolver.nameOf])
  rintro i c taken name ⟨text, hc⟩ hname
  exact (isTypeName_of_typeName? hc).of_isFirstFree hname

/-- **Type names are stable.** A hint gives a type name exactly if it has a letter or a number. The
type name is that of itself, and stays in hints that are made of it. So do the names that a
resolver has given to nodes, after any run and with the numbers that tell them apart. -/
theorem typeName_stable (hint : String) :
    ((typeName? hint).isSome = true ↔ ∃ c ∈ hint.toList, Text.isAlphanumeric c = true) ∧
    (∀ name, typeName? hint = some name → typeName? name = some name ∧ Stays name) ∧
    ∀ g ops r, Resolver.Operation.run g {} ops = some r →
      ∀ i name, r.nameOf i = some name → typeName? name = some name ∧ Stays name := by
  refine ⟨?_, fun name hname => ?_, fun g ops r hrun i name hi => ?_⟩
  · rw [Option.isSome_iff_exists, exists_typeName_iff]
  · have hstays := (isTypeName_of_typeName? hname).stays
    exact ⟨hstays.typeName?_eq, hstays⟩
  · have hstays := (Resolver.isTypeName_nameOf hrun i name hi).stays
    exact ⟨hstays.typeName?_eq, hstays⟩

/-- Upper case makes one letter into two and another into a letter with a mark, and `_` stands
before the number; the second of two persons keeps its number in the hint for its base. -/
theorem typeName_stable_numbered :
    typeName? "2. ǰet, ŉ" = some "_2JetʼN" ∧ typeName? "_2JetʼN" = some "_2JetʼN" ∧
    ∃ r, Resolver.Operation.run Resolver.twoPersons {} [.resolve 1 none, .resolve 0 none] = some r ∧
      r.nameOf 0 = some "Person2" ∧
      typeName? ("Person2" ++ "Base") = some ("Person2" ++ "Base") := by
  have hjet : typeName? "2. ǰet, ŉ" = some "_2JetʼN" := by decide
  have hname : (Resolver.Operation.run Resolver.twoPersons {}
      [.resolve 1 none, .resolve 0 none]).bind (·.nameOf 0) = some "Person2" := by decide
  obtain ⟨r, hrun, hperson⟩ := Option.bind_eq_some_iff.1 hname
  obtain ⟨-, hagain, hgiven⟩ := typeName_stable "2. ǰet, ŉ"
  have hletters : ∀ c ∈ "Base".toList, Text.isAlphanumeric c = true :=
    List.all_eq_true.1 (by decide)
  have hstays := (hgiven _ _ r hrun 0 _ hperson).2
  exact ⟨hjet, (hagain _ hjet).1, r, hrun, hperson, hstays.typeName?_append hletters⟩

end ContractGen
