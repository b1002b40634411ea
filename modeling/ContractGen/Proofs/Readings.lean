import ContractGen.Json.Reader.Value
import ContractGen.Proofs.Outcomes

/-!
# What is read of arrays and objects

An array is read item by item and an object entry by entry. `Items` and `Entries` keep the values
and the cursors between them; the bound on the walk and the values collected so far are not in them.
`reading_of_readValue` takes a value apart that was read: it is a scalar, or an array or object with
such items or entries.

Another walk over the same array or object goes from cursor to cursor in the same way, whatever it
makes of the items and entries. It *agrees* with a fold over the values that were read if it does so
at each of them (`Items.foldItems`, `Entries.foldEntries`).
-/

namespace ContractGen

namespace Json

/-! ### Agreement -/

/-- What is read from a text is what the value there gives, and reading goes on at `cur`; or else
both fail, each with its own message. -/
def Agrees {α ε : Type} (x : Except Failure (α × Cursor)) (y : Except ε α) (cur : Cursor) : Prop :=
  match y with
  | .ok a => x = .ok (a, cur)
  | .error _ => ∃ f, x = .error f

namespace Agrees

variable {α β ε : Type} {x : Except Failure (α × Cursor)} {y : Except ε α} {cur cur' : Cursor}

theorem refused (hx : ∃ f, x = .error f) (hy : ∃ e, y = .error e) : Agrees x y cur := by
  obtain ⟨e, rfl⟩ := hy
  exact hx

theorem bind {f : α × Cursor → Except Failure (β × Cursor)} {g : α → Except ε β}
    (h : Agrees x y cur) (hf : ∀ a, Agrees (f (a, cur)) (g a) cur') :
    Agrees (x >>= f) (y >>= g) cur' := by
  cases y with
  | ok a =>
    obtain rfl : x = .ok (a, cur) := h
    exact hf a
  | error e =>
    obtain ⟨failure, rfl⟩ := h
    exact ⟨failure, rfl⟩

theorem map {g : α → β} (h : Agrees x y cur) :
    Agrees (x >>= fun (a, cur) => .ok (g a, cur)) (y.map g) cur := by
  cases y with
  | ok a =>
    obtain rfl : x = .ok (a, cur) := h
    rfl
  | error e =>
    obtain ⟨failure, rfl⟩ := h
    exact ⟨failure, rfl⟩

end Agrees

/-! ### Items and entries -/

/-- The items of an array from `cur` on, where `first` tells whether the array begins there. -/
inductive Items (depth : Nat) : Bool → Cursor → List Value → Cursor → Prop where
  /-- The array ends. -/
  | done {first : Bool} {cur cur' : Cursor} : nextItem first cur = .ok (false, cur') →
      Items depth first cur [] cur'
  /-- An item and those after it. -/
  | item {first : Bool} {cur cur₁ cur₂ cur' : Cursor} {v : Value} {vs : List Value} :
      nextItem first cur = .ok (true, cur₁) → readValue depth cur₁ = .ok (v, cur₂) →
      Items depth false cur₂ vs cur' → Items depth first cur (v :: vs) cur'

/-- The entries of an object from `cur` on, where `first` tells whether the object begins there. -/
inductive Entries (depth : Nat) : Bool → Cursor → List (String × Value) → Cursor → Prop where
  /-- The object ends. -/
  | done {first : Bool} {cur cur' : Cursor} : nextKey first cur = .ok (none, cur') →
      Entries depth first cur [] cur'
  /-- An entry and those after it. -/
  | entry {first : Bool} {cur cur₁ cur₂ cur₃ cur' : Cursor} {key : String} {v : Value}
      {es : List (String × Value)} :
      nextKey first cur = .ok (some key, cur₁) → readColon cur₁ = .ok cur₂ →
      readValue depth cur₂ = .ok (v, cur₃) → Entries depth false cur₃ es cur' →
      Entries depth first cur ((key, v) :: es) cur'

variable {depth fuel : Nat} {first : Bool} {cur cur' : Cursor} {v : Value}

theorem exists_items {done all : List Value}
    (h : foldItems (fun vs cur => do
      let (v, cur) ← readValue depth cur
      .ok (v :: vs, cur)) fuel first done cur = .ok (all, cur')) :
    ∃ vs, Items depth first cur vs cur' ∧ all = vs.reverse ++ done ∧ vs.length < fuel := by
  induction fuel generalizing first done cur with
  | zero => cases h
  | succ fuel ih =>
    obtain ⟨⟨more, cur₁⟩, hnext, hmore⟩ := bind_eq_ok_iff.1 h
    cases more with
    | false =>
      obtain ⟨rfl, rfl⟩ := Prod.mk.inj (Except.ok.inj hmore)
      exact ⟨[], .done hnext, rfl, Nat.succ_pos _⟩
    | true =>
      obtain ⟨⟨_, cur₂⟩, hitem, hrest⟩ := bind_eq_ok_iff.1 hmore
      obtain ⟨⟨v, _⟩, hv, heq⟩ := bind_eq_ok_iff.1 hitem
      obtain ⟨rfl, rfl⟩ := Prod.mk.inj (Except.ok.inj heq)
      obtain ⟨vs, hvs, rfl, hlength⟩ := ih hrest
      exact ⟨v :: vs, .item hnext hv hvs, by simp, Nat.succ_lt_succ hlength⟩

theorem exists_entries {done all : List (String × Value)}
    (h : foldEntries (fun es key cur => do
      let cur ← readColon cur
      let (v, cur) ← readValue depth cur
      .ok ((key, v) :: es, cur)) fuel first done cur = .ok (all, cur')) :
    ∃ es, Entries depth first cur es cur' ∧ all = es.reverse ++ done ∧ es.length < fuel := by
  induction fuel generalizing first done cur with
  | zero => cases h
  | succ fuel ih =>
    obtain ⟨⟨found, cur₁⟩, hnext, hmore⟩ := bind_eq_ok_iff.1 h
    cases found with
    | none =>
      obtain ⟨rfl, rfl⟩ := Prod.mk.inj (Except.ok.inj hmore)
      exact ⟨[], .done hnext, rfl, Nat.succ_pos _⟩
    | some key =>
      obtain ⟨⟨_, cur₃⟩, hentry, hrest⟩ := bind_eq_ok_iff.1 hmore
      obtain ⟨cur₂, hcolon, hvalue⟩ := bind_eq_ok_iff.1 hentry
      obtain ⟨⟨v, _⟩, hv, heq⟩ := bind_eq_ok_iff.1 hvalue
      obtain ⟨rfl, rfl⟩ := Prod.mk.inj (Except.ok.inj heq)
      obtain ⟨es, hes, rfl, hlength⟩ := ih hrest
      exact ⟨(key, v) :: es, .entry hnext hcolon hv hes, by simp, Nat.succ_lt_succ hlength⟩

/-! ### Values -/

/-- How a value is read: `depth` more arrays and objects may be opened. -/
inductive Reading : Nat → Cursor → Value → Cursor → Prop where
  /-- A scalar. -/
  | scalar {depth : Nat} {cur cur' : Cursor} {v : Value} :
      readScalar cur.skipBlanks = .ok (v, cur') → Reading depth cur v cur'
  /-- An array, with no more items than there are characters. -/
  | array {depth : Nat} {cur cur' : Cursor} {rest : List Char} {vs : List Value} :
      cur.skipBlanks.rest = '[' :: rest →
      Items depth true (cur.skipBlanks.step '[' rest) vs cur' →
      vs.length < (cur.skipBlanks.step '[' rest).rest.length + 1 →
      Reading (depth + 1) cur (.array vs) cur'
  /-- An object, with no more entries than there are characters. -/
  | object {depth : Nat} {cur cur' : Cursor} {rest : List Char} {es : List (String × Value)} :
      cur.skipBlanks.rest = '\x7b' :: rest →
      Entries depth true (cur.skipBlanks.step '\x7b' rest) es cur' →
      es.length < (cur.skipBlanks.step '\x7b' rest).rest.length + 1 →
      Reading (depth + 1) cur (.object es) cur'

/-- **How values are read.** -/
theorem reading_of_readValue (h : readValue depth cur = .ok (v, cur')) :
    Reading depth cur v cur' := by
  unfold readValue at h
  simp only at h
  split at h
  · cases h
  · cases h
  · rename_i depth rest hrest
    obtain ⟨⟨all, cur₁⟩, hitems, heq⟩ := bind_eq_ok_iff.1 h
    obtain ⟨rfl, rfl⟩ := Prod.mk.inj (Except.ok.inj heq)
    obtain ⟨vs, hvs, rfl, hlength⟩ := exists_items hitems
    rw [List.append_nil, List.reverse_reverse]
    exact .array hrest hvs hlength
  · rename_i depth rest hrest
    obtain ⟨⟨all, cur₁⟩, hentries, heq⟩ := bind_eq_ok_iff.1 h
    obtain ⟨rfl, rfl⟩ := Prod.mk.inj (Except.ok.inj heq)
    obtain ⟨es, hes, rfl, hlength⟩ := exists_entries hentries
    rw [List.append_nil, List.reverse_reverse]
    exact .object hrest hes hlength
  · exact .scalar h

/-- What stands at the beginning of a scalar and what it gives is neither an array nor an object. -/
theorem readScalar_plain (h : readScalar cur = .ok (v, cur')) :
    (∀ rest, cur.rest ≠ '[' :: rest) ∧ (∀ rest, cur.rest ≠ '\x7b' :: rest) ∧
      (∀ vs, v ≠ .array vs) ∧ ∀ es, v ≠ .object es := by
  unfold readScalar at h
  split at h
  · cases h
  rename_i c rest hrest
  have hopen : c ≠ '[' ∧ c ≠ '\x7b' := by
    constructor <;> rintro rfl <;> cases h
  refine ⟨?_, ?_, ?_⟩
  · intro rest' heq
    exact hopen.1 (List.cons.inj (hrest.symm.trans heq)).1
  · intro rest' heq
    exact hopen.2 (List.cons.inj (hrest.symm.trans heq)).1
  · split_ifs at h
    all_goals
      first
      | cases h
      | obtain ⟨_, -, heq⟩ := map_eq_ok_iff.1 h
        obtain ⟨rfl, -⟩ := Prod.mk.inj heq
        exact ⟨by simp, by simp⟩

/-! ### Other walks -/

/-- **Walks over an array agree with folds over its items.** -/
theorem Items.foldItems {σ ε : Type} {item : σ → Cursor → Except Failure (σ × Cursor)}
    {step : σ → Value → Except ε σ} {vs : List Value}
    (hitem : ∀ s cur v cur', readValue depth cur = .ok (v, cur') →
      Agrees (item s cur) (step s v) cur')
    (h : Items depth first cur vs cur') (hfuel : vs.length < fuel) (s : σ) :
    Agrees (Json.foldItems item fuel first s cur) (vs.foldlM step s) cur' := by
  induction h generalizing fuel s with
  | done hnext =>
    obtain _ | fuel := fuel
    · exact absurd hfuel (Nat.not_lt_zero _)
    simp only [Json.foldItems, hnext]
    rfl
  | item hnext hv _ ih =>
    obtain _ | fuel := fuel
    · exact absurd hfuel (Nat.not_lt_zero _)
    simp only [Json.foldItems, hnext, List.foldlM_cons]
    exact (hitem s _ _ _ hv).bind fun s => ih (Nat.lt_of_succ_lt_succ hfuel) s

/-- **Walks over an object agree with folds over its entries.** -/
theorem Entries.foldEntries {σ ε : Type}
    {entry : σ → String → Cursor → Except Failure (σ × Cursor)}
    {step : σ → String × Value → Except ε σ} {es : List (String × Value)}
    (hentry : ∀ s key cur cur₁ v cur', readColon cur = .ok cur₁ →
      readValue depth cur₁ = .ok (v, cur') → Agrees (entry s key cur) (step s (key, v)) cur')
    (h : Entries depth first cur es cur') (hfuel : es.length < fuel) (s : σ) :
    Agrees (Json.foldEntries entry fuel first s cur) (es.foldlM step s) cur' := by
  induction h generalizing fuel s with
  | done hnext =>
    obtain _ | fuel := fuel
    · exact absurd hfuel (Nat.not_lt_zero _)
    simp only [Json.foldEntries, hnext]
    rfl
  | entry hnext hcolon hv _ ih =>
    obtain _ | fuel := fuel
    · exact absurd hfuel (Nat.not_lt_zero _)
    simp only [Json.foldEntries, hnext, List.foldlM_cons]
    exact (hentry s _ _ _ _ _ hcolon hv).bind fun s => ih (Nat.lt_of_succ_lt_succ hfuel) s

end Json

end ContractGen
