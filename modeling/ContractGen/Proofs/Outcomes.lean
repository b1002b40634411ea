import Mathlib.Data.List.Forall2

/-!
# Outcomes of steps that may fail

Steps in a row succeed just if each does, and the first that fails gives the error. This is said
of two steps (`bind_eq_ok_iff`), of one step for each member of a list (`mapM_eq_ok_iff`), and of
checks, which give nothing but their verdict (`forM_range_eq_ok_iff`, `forM_range_eq_error_iff`).
-/

namespace ContractGen

/-! ### Steps with a result -/

section

variable {α β ε : Type}

theorem bind_eq_ok_iff {x : Except ε α} {f : α → Except ε β} {b : β} :
    (x >>= f) = .ok b ↔ ∃ a, x = .ok a ∧ f a = .ok b := by
  cases x <;> simp [bind, Except.bind]

theorem map_eq_ok_iff {x : Except ε α} {f : α → β} {b : β} :
    x.map f = .ok b ↔ ∃ a, x = .ok a ∧ f a = b := by
  cases x <;> simp [Except.map]

theorem mapM_eq_ok_iff {f : α → Except ε β} {as : List α} {bs : List β} :
    as.mapM f = .ok bs ↔ List.Forall₂ (fun a b => f a = .ok b) as bs := by
  induction as generalizing bs with
  | nil => cases bs <;> simp [pure, Except.pure]
  | cons a rest ih =>
    simp only [List.mapM_cons, bind_eq_ok_iff, ih]
    constructor
    · rintro ⟨b, hb, bs', hrest, h⟩
      cases h
      exact .cons hb hrest
    · rintro (_ | ⟨hb, hrest⟩)
      exact ⟨_, hb, _, hrest, rfl⟩

theorem exists_eq_ok {x : Except ε α} (h : x.toOption.isSome = true) : ∃ a, x = .ok a := by
  cases x with
  | error e => cases h
  | ok a => exact ⟨a, rfl⟩

end

/-! ### Checks in a row -/

section

variable {ε : Type} {e : ε} {x y : Except ε Unit} {f : Nat → Except ε Unit} {n : Nat}

theorem seq_eq_ok_iff : (x >>= fun _ => y) = .ok () ↔ x = .ok () ∧ y = .ok () := by
  cases x <;> simp [bind, Except.bind]

theorem seq_eq_error_iff :
    (x >>= fun _ => y) = .error e ↔ x = .error e ∨ x = .ok () ∧ y = .error e := by
  cases x <;> simp [bind, Except.bind]

theorem forM_range_succ (f : Nat → Except ε Unit) (n : Nat) :
    (List.range (n + 1)).forM f = (List.range n).forM f >>= fun _ => f n := by
  rw [List.range_succ, List.forM_eq_forM, List.forM_append]
  simp

theorem forM_range_eq_ok_iff : (List.range n).forM f = .ok () ↔ ∀ i < n, f i = .ok () := by
  induction n with
  | zero => simp [pure, Except.pure]
  | succ n ih =>
    rw [forM_range_succ, seq_eq_ok_iff, ih]
    exact Nat.forall_lt_succ_right.symm

/-- The first check that fails gives the error. -/
theorem forM_range_eq_error_iff :
    (List.range n).forM f = .error e ↔ ∃ i < n, f i = .error e ∧ ∀ j < i, f j = .ok () := by
  induction n with
  | zero => simp [pure, Except.pure]
  | succ n ih =>
    rw [forM_range_succ, seq_eq_error_iff, ih, forM_range_eq_ok_iff]
    constructor
    · rintro (⟨i, hi, herror, hbefore⟩ | ⟨hbefore, herror⟩)
      · exact ⟨i, by omega, herror, hbefore⟩
      · exact ⟨n, by omega, herror, hbefore⟩
    · rintro ⟨i, hi, herror, hbefore⟩
      rcases Nat.lt_succ_iff_lt_or_eq.1 hi with hlt | rfl
      · exact .inl ⟨i, hlt, herror, hbefore⟩
      · exact .inr ⟨hbefore, herror⟩

end

end ContractGen
