import ContractGen.Contract.Members
import ContractGen.Features
import ContractGen.Proofs.Descent

/-!
# What contracts mention and need

A contract *mentions* the types that stand in it: its base, its subtypes, and the types of its
members or cases. `Features.withContract` says what one contract adds to a feature record, by a look
at the contract alone; the lemmas after it read the entries of the record off a row of contracts.
-/

namespace ContractGen

open Contract (Member Case Body)

namespace TypeRef

theorem mem_aritiesAll {n : Nat} {ts : List TypeRef} :
    n ∈ aritiesAll ts ↔ ∃ t ∈ ts, n ∈ t.arities := by
  induction ts with
  | nil => simp [aritiesAll]
  | cons t ts ih => simp [aritiesAll, ih]

theorem mem_namesAll {name : String} {ts : List TypeRef} :
    name ∈ namesAll ts ↔ ∃ t ∈ ts, name ∈ t.names := by
  induction ts with
  | nil => simp [namesAll]
  | cons t ts ih => simp [namesAll, ih]

end TypeRef

namespace Contract

/-- The types of the members or cases of a contract. -/
def types (c : Contract) : List TypeRef :=
  match c.body with
  | .record r => r.members.map Member.type
  | .enumeration _ => []
  | .union u => u.cases.map Case.type

/-- The names of base and subtypes of a contract. -/
def relatives (c : Contract) : List String :=
  match c.body with
  | .record r =>
    r.base.toList ++ (r.hierarchy.map fun h => h.subtypes.map Subtype.typeName).getD []
  | .enumeration _ => []
  | .union _ => []

/-- The names of declared types in a contract. -/
def mentions (c : Contract) : List String := c.relatives ++ TypeRef.namesAll c.types

/-- Whether a contract is a class that tells its subtypes apart by a property. -/
def hasHierarchy (c : Contract) : Bool :=
  match c.body with
  | .record r => r.hierarchy.isSome
  | .enumeration _ => false
  | .union _ => false

/-- Whether a contract has a member that is a plain date. -/
def hasDate (c : Contract) : Bool :=
  match c.body with
  | .record r => r.members.any Member.isDate
  | .enumeration _ => false
  | .union _ => false

/-- The number of cases of a contract that is a union. -/
def unionArity? (c : Contract) : Option Nat :=
  match c.body with
  | .record _ => none
  | .enumeration _ => none
  | .union u => some u.cases.length

end Contract

/-! ### Arities in ascending order -/

theorem mem_insertArity {m n : Nat} {ns : List Nat} : m ∈ insertArity n ns ↔ m = n ∨ m ∈ ns := by
  induction ns with
  | nil => simp [insertArity]
  | cons k ns ih =>
    simp only [insertArity]
    split_ifs with hlt heq
    · simp
    · simp [heq]
    · simp only [List.mem_cons, ih]; tauto

theorem pairwise_insertArity {n : Nat} {ns : List Nat} (h : ns.Pairwise (· < ·)) :
    (insertArity n ns).Pairwise (· < ·) := by
  induction ns with
  | nil => simp [insertArity]
  | cons k ns ih =>
    obtain ⟨hk, hns⟩ := List.pairwise_cons.1 h
    simp only [insertArity]
    split_ifs with hlt heq
    · refine List.pairwise_cons.2 ⟨fun m hm => ?_, h⟩
      rcases List.mem_cons.1 hm with rfl | hm
      · exact hlt
      · exact hlt.trans (hk m hm)
    · exact h
    · refine List.pairwise_cons.2 ⟨fun m hm => ?_, ih hns⟩
      rcases mem_insertArity.1 hm with rfl | hm
      · omega
      · exact hk m hm

theorem insertArity_insertArity {m n : Nat} {ns : List Nat} (h : insertArity n ns = ns) :
    insertArity n (insertArity m ns) = insertArity m ns := by
  induction ns with
  | nil => simp [insertArity] at h
  | cons k ns ih => grind [insertArity]

theorem insertArity_self (n : Nat) (ns : List Nat) :
    insertArity n (insertArity n ns) = insertArity n ns := by
  induction ns with
  | nil => simp [insertArity]
  | cons k ns ih =>
    simp only [insertArity]
    split_ifs <;> simp_all [insertArity]

namespace Features

/-! ### Additions to a feature record -/

/-- The record with the unions of a reference. -/
def withRef (f : Features) (t : TypeRef) : Features := t.arities.foldl withInlineUnion f

/-- The record with what a member needs. -/
def withMember (f : Features) (m : Member) : Features :=
  { f.withRef m.type with dateFormat := (f.withRef m.type).dateFormat || m.isDate }

/-- The record with what a contract needs. -/
def withContract (f : Features) (c : Contract) : Features :=
  match c.body with
  | .record r =>
    let f := r.members.foldl withMember f
    { f with inheritance := f.inheritance || r.hierarchy.isSome }
  | .enumeration _ => f
  | .union u => ((u.cases.map Case.type).foldl withRef f).withNamedUnion u.cases.length

/-- Arities are in ascending order, each once. -/
structure Ascending (f : Features) : Prop where
  /-- The arities of unions in place. -/
  valueUnions : f.valueUnions.Pairwise (· < ·)
  /-- The arities of all unions. -/
  abstractUnions : f.abstractUnions.Pairwise (· < ·)

/-- `f'` has what `f` has and, besides, the given flags and the arities of unions in place and of
unions declared as types. -/
structure Adds (f f' : Features) (inheritance dateFormat : Bool) (inline named : List Nat) :
    Prop where
  /-- Subtypes told apart by a property. -/
  inheritance : f'.inheritance = (f.inheritance || inheritance)
  /-- Plain dates. -/
  dateFormat : f'.dateFormat = (f.dateFormat || dateFormat)
  /-- Unions in place. -/
  valueUnions : ∀ n, n ∈ f'.valueUnions ↔ n ∈ f.valueUnions ∨ n ∈ inline
  /-- All unions. -/
  abstractUnions : ∀ n, n ∈ f'.abstractUnions ↔ n ∈ f.abstractUnions ∨ n ∈ inline ∨ n ∈ named
  /-- The order of arities is kept. -/
  ascending : f.Ascending → f'.Ascending

namespace Adds

variable {f f₁ f' : Features} {a b a' b' : Bool} {i n i' n' : List Nat}

theorem refl (f : Features) : Adds f f false false [] [] := by
  constructor <;> simp

theorem trans (h : Adds f f₁ a b i n) (h' : Adds f₁ f' a' b' i' n') :
    Adds f f' (a || a') (b || b') (i ++ i') (n ++ n') where
  inheritance := by rw [h'.inheritance, h.inheritance, Bool.or_assoc]
  dateFormat := by rw [h'.dateFormat, h.dateFormat, Bool.or_assoc]
  valueUnions k := by rw [h'.valueUnions, h.valueUnions, List.mem_append, or_assoc]
  abstractUnions k := by
    rw [h'.abstractUnions, h.abstractUnions, List.mem_append, List.mem_append]
    tauto
  ascending hf := h'.ascending (h.ascending hf)

end Adds

theorem adds_withInlineUnion (f : Features) (n : Nat) :
    Adds f (f.withInlineUnion n) false false [n] [] where
  inheritance := by simp [withInlineUnion]
  dateFormat := by simp [withInlineUnion]
  valueUnions k := by simp [withInlineUnion, mem_insertArity, or_comm]
  abstractUnions k := by simp [withInlineUnion, mem_insertArity, or_comm]
  ascending hf := ⟨pairwise_insertArity hf.valueUnions, pairwise_insertArity hf.abstractUnions⟩

theorem adds_withNamedUnion (f : Features) (n : Nat) :
    Adds f (f.withNamedUnion n) false false [] [n] where
  inheritance := by simp [withNamedUnion]
  dateFormat := by simp [withNamedUnion]
  valueUnions k := by simp [withNamedUnion]
  abstractUnions k := by simp [withNamedUnion, mem_insertArity, or_comm]
  ascending hf := ⟨hf.valueUnions, pairwise_insertArity hf.abstractUnions⟩

theorem adds_foldl_withInlineUnion (f : Features) (ns : List Nat) :
    Adds f (ns.foldl withInlineUnion f) false false ns [] := by
  induction ns generalizing f with
  | nil => exact .refl f
  | cons n ns ih => exact (adds_withInlineUnion f n).trans (ih (f.withInlineUnion n))

theorem withInlineUnion_foldl {f : Features} {n : Nat} (h : f.withInlineUnion n = f)
    (ns : List Nat) :
    (ns.foldl withInlineUnion f).withInlineUnion n = ns.foldl withInlineUnion f := by
  induction ns generalizing f with
  | nil => exact h
  | cons m ns ih =>
    refine ih ?_
    obtain ⟨hvalue, habstract⟩ : insertArity n f.valueUnions = f.valueUnions ∧
        insertArity n f.abstractUnions = f.abstractUnions :=
      ⟨congrArg valueUnions h, congrArg abstractUnions h⟩
    simp only [withInlineUnion, insertArity_insertArity hvalue, insertArity_insertArity habstract]

theorem foldl_withInlineUnion_self (f : Features) (ns : List Nat) :
    ns.foldl withInlineUnion (ns.foldl withInlineUnion f) = ns.foldl withInlineUnion f := by
  have hrecorded : ∀ n ∈ ns,
      (ns.foldl withInlineUnion f).withInlineUnion n = ns.foldl withInlineUnion f := by
    intro n hn
    obtain ⟨before, after, rfl⟩ := List.append_of_mem hn
    rw [List.foldl_append, List.foldl_cons]
    exact withInlineUnion_foldl (by simp only [withInlineUnion, insertArity_self]) after
  generalize ns.foldl withInlineUnion f = f' at hrecorded ⊢
  induction ns with
  | nil => rfl
  | cons n ns ih =>
    rw [List.foldl_cons, hrecorded n List.mem_cons_self]
    exact ih fun m hm => hrecorded m (List.mem_cons_of_mem n hm)

theorem adds_withRef (f : Features) (t : TypeRef) :
    Adds f (f.withRef t) false false t.arities [] :=
  adds_foldl_withInlineUnion f t.arities

theorem adds_foldl_withRef (f : Features) (ts : List TypeRef) :
    Adds f (ts.foldl withRef f) false false (TypeRef.aritiesAll ts) [] := by
  induction ts generalizing f with
  | nil => exact .refl f
  | cons t ts ih => exact (adds_withRef f t).trans (ih (f.withRef t))

theorem adds_withMember (f : Features) (m : Member) :
    Adds f (f.withMember m) false m.isDate m.type.arities [] := by
  have h := adds_withRef f m.type
  exact ⟨h.inheritance, by simp [withMember, h.dateFormat], h.valueUnions, h.abstractUnions,
    fun hf => ⟨(h.ascending hf).valueUnions, (h.ascending hf).abstractUnions⟩⟩

theorem adds_foldl_withMember (f : Features) (ms : List Member) :
    Adds f (ms.foldl withMember f) false (ms.any Member.isDate)
      (TypeRef.aritiesAll (ms.map Member.type)) [] := by
  induction ms generalizing f with
  | nil => exact .refl f
  | cons m ms ih => exact (adds_withMember f m).trans (ih (f.withMember m))

/-- **What a contract adds** is what stands in it. -/
theorem adds_withContract (f : Features) (c : Contract) :
    Adds f (f.withContract c) c.hasHierarchy c.hasDate (TypeRef.aritiesAll c.types)
      c.unionArity?.toList := by
  cases hbody : c.body with
  | record r =>
    have h := adds_foldl_withMember f r.members
    simp only [withContract, Contract.hasHierarchy, Contract.hasDate, Contract.types,
      Contract.unionArity?, hbody]
    exact ⟨by simp [h.inheritance], h.dateFormat, h.valueUnions, h.abstractUnions,
      fun hf => ⟨(h.ascending hf).valueUnions, (h.ascending hf).abstractUnions⟩⟩
  | enumeration e =>
    simp only [withContract, Contract.hasHierarchy, Contract.hasDate, Contract.types,
      Contract.unionArity?, hbody]
    exact .refl f
  | union u =>
    simp only [withContract, Contract.hasHierarchy, Contract.hasDate, Contract.types,
      Contract.unionArity?, hbody]
    simpa using (adds_foldl_withRef f (u.cases.map Case.type)).trans (adds_withNamedUnion _ _)

/-- What a row of contracts adds is what stands in them. -/
theorem adds_foldl_withContract (f : Features) (cs : List Contract) :
    Adds f (cs.foldl withContract f) (cs.any Contract.hasHierarchy) (cs.any Contract.hasDate)
      (cs.flatMap fun c => TypeRef.aritiesAll c.types)
      (cs.flatMap fun c => c.unionArity?.toList) := by
  induction cs generalizing f with
  | nil => exact .refl f
  | cons c cs ih => exact (adds_withContract f c).trans (ih (f.withContract c))

end Features

/-! ### Renamed members -/

namespace Contract

theorem length_distinctAfter (owner : String) (declared used names : List String) :
    (distinctAfter owner declared used names).length = names.length := by
  induction names generalizing used with
  | nil => rfl
  | cons name names ih => simp [distinctAfter, ih]

theorem map_distinctMembers {α : Type} (f : Member → α) (hf : ∀ m name, f { m with name } = f m)
    (owner : String) (ms : List Member) : (distinctMembers owner ms).map f = ms.map f := by
  have hlen : (distinctNames owner (ms.map Member.name)).length = ms.length := by
    rw [distinctNames, length_distinctAfter, List.length_map]
  rw [distinctMembers]
  generalize distinctNames owner (ms.map Member.name) = names at hlen
  induction ms generalizing names with
  | nil => simp
  | cons m ms ih =>
    cases names with
    | nil => simp at hlen
    | cons name names =>
      simp only [List.zipWith_cons_cons, List.map_cons, hf]
      rw [ih names (by simpa using hlen)]

theorem types_distinctMembers (owner : String) (ms : List Member) :
    (distinctMembers owner ms).map Member.type = ms.map Member.type :=
  map_distinctMembers _ (fun _ _ => rfl) owner ms

theorem foldl_withMember_distinctMembers (f : Features) (owner : String) (ms : List Member) :
    (distinctMembers owner ms).foldl Features.withMember f = ms.foldl Features.withMember f := by
  have hmap : ∀ (f : Features) (ms : List Member), ms.foldl Features.withMember f =
      (ms.map fun m => (m.type, m.isDate)).foldl
        (fun f p => { f.withRef p.1 with dateFormat := (f.withRef p.1).dateFormat || p.2 }) f := by
    intro f ms
    rw [List.foldl_map]
    rfl
  rw [hmap, map_distinctMembers _ (fun _ _ => rfl), ← hmap]

end Contract

end ContractGen
