import ContractGen.Json.Value
import Mathlib.Data.List.Nodup

/-!
# Documents in canonical form

An object without repeated keys says the same in every order of its entries. `hasDistinctKeys` asks
that of all objects in a document and `isCanonical` that keys ascend besides; the documents of the
second kind are the results and fixed points of `canonical` (`isCanonical_canonical`,
`canonical_of_isCanonical`).

Two documents with distinct keys and the same canonical form differ in the order of entries only:
under each key they have values of which the same holds (`Value.Reorders.object`).
-/

namespace ContractGen

namespace Json

/-! ### Sorted entries -/

section Entries

variable {α : Type}

/-- The keys of the entries ascend, so that none is there twice. -/
def Ascending (entries : List (String × α)) : Prop := entries.Pairwise fun a b => a.1 < b.1

theorem Ascending.nodup_keys {entries : List (String × α)} (h : Ascending entries) :
    (entries.map Prod.fst).Nodup := by
  refine List.Pairwise.map Prod.fst (fun a b hlt heq => ?_) h
  rw [heq] at hlt
  exact String.lt_irrefl b.1 hlt

theorem mem_insertEntry {key : String} {value : α} {e : String × α} {entries : List (String × α)}
    (h : e ∈ insertEntry key value entries) : e = (key, value) ∨ e ∈ entries := by
  induction entries with
  | nil => exact Or.inl (by simpa [insertEntry] using h)
  | cons first rest ih =>
    simp only [insertEntry] at h
    split_ifs at h with hlt heq
    · exact List.mem_cons.1 h
    · exact (List.mem_cons.1 h).imp_right (List.mem_cons_of_mem _)
    · rcases List.mem_cons.1 h with rfl | h
      · exact Or.inr List.mem_cons_self
      · exact (ih h).imp_right (List.mem_cons_of_mem _)

theorem Ascending.insertEntry {entries : List (String × α)} (h : Ascending entries) (key : String)
    (value : α) : Ascending (insertEntry key value entries) := by
  induction entries with
  | nil => simp [Ascending, Json.insertEntry]
  | cons first rest ih =>
    obtain ⟨hfirst, hrest⟩ := List.pairwise_cons.1 h
    simp only [Json.insertEntry]
    split_ifs with hlt heq
    · refine List.pairwise_cons.2 ⟨fun e he => ?_, h⟩
      rcases List.mem_cons.1 he with rfl | he
      · exact hlt
      · exact String.lt_trans hlt (hfirst e he)
    · exact List.pairwise_cons.2 ⟨fun e he => heq ▸ hfirst e he, hrest⟩
    · refine List.pairwise_cons.2 ⟨fun e he => ?_, ih hrest⟩
      rcases mem_insertEntry he with rfl | he
      · exact (Std.lt_trichotomy first.1 key).elim id fun h =>
          h.elim (fun h => absurd h.symm heq) fun h => absurd h hlt
      · exact hfirst e he

theorem lookup_cons_eq (k : String) (e : String × α) (rest : List (String × α)) :
    (e :: rest).lookup k = if k = e.1 then some e.2 else rest.lookup k := by
  rw [List.lookup_cons]
  by_cases hk : k = e.1
  · simp [hk]
  · simp [hk, beq_eq_false_iff_ne.2 hk]

theorem lookup_eq_none_of_not_mem {k : String} {entries : List (String × α)}
    (h : k ∉ entries.map Prod.fst) : entries.lookup k = none := by
  refine List.lookup_eq_none_iff.2 fun e he => bne_iff_ne.2 fun hk => h ?_
  exact hk ▸ List.mem_map_of_mem he

theorem mem_of_lookup {k : String} {a : α} {entries : List (String × α)}
    (h : entries.lookup k = some a) : (k, a) ∈ entries := by
  obtain ⟨before, after, rfl, -⟩ := List.lookup_eq_some_iff.1 h
  simp

theorem lookup_insertEntry (key : String) (value : α) (k : String)
    (entries : List (String × α)) :
    (insertEntry key value entries).lookup k =
      if k = key then some value else entries.lookup k := by
  induction entries with
  | nil => simp [insertEntry, lookup_cons_eq]
  | cons first rest ih =>
    simp only [insertEntry]
    split_ifs with hlt heq hk hk <;> grind [lookup_cons_eq]

theorem foldl_insertEntry_induct {P : List (String × α) → Prop}
    (hstep : ∀ key value sorted, P sorted → P (insertEntry key value sorted))
    (entries sorted : List (String × α)) (h : P sorted) :
    P (entries.foldl (fun sorted entry => insertEntry entry.1 entry.2 sorted) sorted) := by
  induction entries generalizing sorted with
  | nil => exact h
  | cons e rest ih => exact ih _ (hstep _ _ _ h)

theorem ascending_sortEntries (entries : List (String × α)) : Ascending (sortEntries entries) :=
  foldl_insertEntry_induct (fun key value _ h => h.insertEntry key value) entries []
    List.Pairwise.nil

theorem mem_sortEntries {e : String × α} {entries : List (String × α)}
    (h : e ∈ sortEntries entries) : e ∈ entries := by
  have hall : ∀ es sorted : List (String × α), (∀ e ∈ sorted, e ∈ entries) →
      (∀ e ∈ es, e ∈ entries) →
      ∀ e ∈ es.foldl (fun sorted entry => insertEntry entry.1 entry.2 sorted) sorted,
        e ∈ entries := by
    intro es
    induction es with
    | nil => exact fun sorted hsorted _ => hsorted
    | cons first rest ih =>
      intro sorted hsorted hes
      refine ih _ (fun e he => ?_) fun e he => hes e (List.mem_cons_of_mem _ he)
      rcases mem_insertEntry he with rfl | he
      · exact hes first List.mem_cons_self
      · exact hsorted e he
  exact hall entries [] (by simp) (fun _ h => h) e h

theorem lookup_sortEntries {entries : List (String × α)} (h : (entries.map Prod.fst).Nodup)
    (k : String) : (sortEntries entries).lookup k = entries.lookup k := by
  have hfold : ∀ es sorted : List (String × α), (es.map Prod.fst).Nodup →
      (es.foldl (fun sorted entry => insertEntry entry.1 entry.2 sorted) sorted).lookup k =
        (es.lookup k).or (sorted.lookup k) := by
    intro es
    induction es with
    | nil => simp
    | cons first rest ih =>
      intro sorted hnodup
      obtain ⟨hfirst, hrest⟩ := List.nodup_cons.1 hnodup
      rw [List.foldl_cons, ih _ hrest, lookup_insertEntry, lookup_cons_eq]
      by_cases hk : k = first.1
      · rw [if_pos hk, if_pos hk, lookup_eq_none_of_not_mem (hk ▸ hfirst)]
        rfl
      · rw [if_neg hk, if_neg hk]
  simpa [sortEntries] using hfold entries [] h

theorem insertEntry_of_forall_lt {key : String} (value : α) {entries : List (String × α)}
    (h : ∀ e ∈ entries, e.1 < key) : insertEntry key value entries = entries ++ [(key, value)] := by
  induction entries with
  | nil => rfl
  | cons first rest ih =>
    have hfirst := h first List.mem_cons_self
    rw [insertEntry, if_neg (String.lt_asymm hfirst), if_neg fun heq => ?_,
      ih fun e he => h e (List.mem_cons_of_mem _ he), List.cons_append]
    exact String.lt_irrefl key (heq ▸ hfirst)

theorem sortEntries_of_ascending {entries : List (String × α)} (h : Ascending entries) :
    sortEntries entries = entries := by
  have hfold : ∀ es sorted : List (String × α), Ascending (sorted ++ es) →
      es.foldl (fun sorted entry => insertEntry entry.1 entry.2 sorted) sorted = sorted ++ es := by
    intro es
    induction es with
    | nil => simp
    | cons first rest ih =>
      intro sorted hascending
      have hlt : ∀ e ∈ sorted, e.1 < first.1 := fun e he =>
        (List.pairwise_append.1 hascending).2.2 e he first List.mem_cons_self
      rw [List.foldl_cons, insertEntry_of_forall_lt _ hlt,
        ih _ (by simpa using hascending), List.append_assoc, List.singleton_append]
  exact hfold entries [] h

end Entries

namespace Value

/-! ### Two conditions on documents -/

mutual

/-- Whether no object in the document has a key twice. -/
def hasDistinctKeys : Value → Bool
  | .array items => listHasDistinctKeys items
  | .object entries => decide (entries.map Prod.fst).Nodup && entriesHaveDistinctKeys entries
  | _ => true

/-- `hasDistinctKeys` of each value of a list. -/
def listHasDistinctKeys : List Value → Bool
  | [] => true
  | v :: rest => v.hasDistinctKeys && listHasDistinctKeys rest

/-- `hasDistinctKeys` of the value of each entry. -/
def entriesHaveDistinctKeys : List (String × Value) → Bool
  | [] => true
  | (_, v) :: rest => v.hasDistinctKeys && entriesHaveDistinctKeys rest

end

mutual

/-- Whether the keys of every object in the document ascend. -/
def isCanonical : Value → Bool
  | .array items => listIsCanonical items
  | .object entries => decide (entries.Pairwise fun a b => a.1 < b.1) && entriesAreCanonical entries
  | _ => true

/-- `isCanonical` of each value of a list. -/
def listIsCanonical : List Value → Bool
  | [] => true
  | v :: rest => v.isCanonical && listIsCanonical rest

/-- `isCanonical` of the value of each entry. -/
def entriesAreCanonical : List (String × Value) → Bool
  | [] => true
  | (_, v) :: rest => v.isCanonical && entriesAreCanonical rest

end

theorem listHasDistinctKeys_iff (items : List Value) :
    listHasDistinctKeys items = true ↔ ∀ v ∈ items, v.hasDistinctKeys = true := by
  induction items with
  | nil => simp [listHasDistinctKeys]
  | cons v rest ih => simp [listHasDistinctKeys, ih]

theorem entriesHaveDistinctKeys_iff (entries : List (String × Value)) :
    entriesHaveDistinctKeys entries = true ↔ ∀ e ∈ entries, e.2.hasDistinctKeys = true := by
  induction entries with
  | nil => simp [entriesHaveDistinctKeys]
  | cons e rest ih => simp [entriesHaveDistinctKeys, ih]

@[simp] theorem hasDistinctKeys_bool (b : Bool) : (bool b).hasDistinctKeys = true := rfl

@[simp] theorem hasDistinctKeys_number (n : Number) : (number n).hasDistinctKeys = true := rfl

@[simp] theorem hasDistinctKeys_string (s : String) : (string s).hasDistinctKeys = true := rfl

@[simp] theorem hasDistinctKeys_array (items : List Value) :
    (array items).hasDistinctKeys = true ↔ ∀ v ∈ items, v.hasDistinctKeys = true := by
  rw [hasDistinctKeys, listHasDistinctKeys_iff]

@[simp] theorem hasDistinctKeys_object (entries : List (String × Value)) :
    (object entries).hasDistinctKeys = true ↔
      (entries.map Prod.fst).Nodup ∧ ∀ e ∈ entries, e.2.hasDistinctKeys = true := by
  rw [hasDistinctKeys, Bool.and_eq_true, decide_eq_true_iff, entriesHaveDistinctKeys_iff]

theorem listIsCanonical_iff (items : List Value) :
    listIsCanonical items = true ↔ ∀ v ∈ items, v.isCanonical = true := by
  induction items with
  | nil => simp [listIsCanonical]
  | cons v rest ih => simp [listIsCanonical, ih]

theorem entriesAreCanonical_iff (entries : List (String × Value)) :
    entriesAreCanonical entries = true ↔ ∀ e ∈ entries, e.2.isCanonical = true := by
  induction entries with
  | nil => simp [entriesAreCanonical]
  | cons e rest ih => simp [entriesAreCanonical, ih]

@[simp] theorem isCanonical_array (items : List Value) :
    (array items).isCanonical = true ↔ ∀ v ∈ items, v.isCanonical = true := by
  rw [isCanonical, listIsCanonical_iff]

@[simp] theorem isCanonical_object (entries : List (String × Value)) :
    (object entries).isCanonical = true ↔
      Ascending entries ∧ ∀ e ∈ entries, e.2.isCanonical = true := by
  rw [isCanonical, Bool.and_eq_true, decide_eq_true_iff, entriesAreCanonical_iff, Ascending]

theorem canonicalList_eq_map (items : List Value) : canonicalList items = items.map canonical := by
  induction items with
  | nil => rfl
  | cons v rest ih => rw [canonicalList, ih, List.map_cons]

theorem canonicalEntries_eq_map (entries : List (String × Value)) :
    canonicalEntries entries = entries.map fun e => (e.1, e.2.canonical) := by
  induction entries with
  | nil => rfl
  | cons e rest ih => rw [canonicalEntries, ih, List.map_cons]

theorem canonical_array (items : List Value) :
    (array items).canonical = array (items.map canonical) := by
  rw [canonical, canonicalList_eq_map]

theorem canonical_object (entries : List (String × Value)) :
    (object entries).canonical =
      object (sortEntries (entries.map fun e => (e.1, e.2.canonical))) := by
  rw [canonical, canonicalEntries_eq_map]

/-! ### Canonical documents -/

/-- Induction over documents, with the values of arrays and objects at hand by membership. -/
theorem mem_induct {P : Value → Prop} (hnull : P .null) (hbool : ∀ b, P (.bool b))
    (hnumber : ∀ n, P (.number n)) (hstring : ∀ s, P (.string s))
    (harray : ∀ items, (∀ v ∈ items, P v) → P (.array items))
    (hobject : ∀ entries, (∀ e ∈ entries, P e.2) → P (.object entries)) (v : Value) : P v :=
  @Value.rec P (fun items => ∀ v ∈ items, P v) (fun entries => ∀ e ∈ entries, P e.2)
    (fun e => P e.2) hnull hbool hnumber hstring harray hobject (by simp)
    (fun v rest hv hrest => List.forall_mem_cons.2 ⟨hv, hrest⟩) (by simp)
    (fun e rest he hrest => List.forall_mem_cons.2 ⟨he, hrest⟩) (fun _ _ hv => hv) v

theorem canonical_of_isCanonical (v : Value) : v.isCanonical = true → v.canonical = v := by
  induction v using mem_induct with
  | harray items ih =>
    intro h
    rw [isCanonical_array] at h
    rw [canonical_array, List.map_congr_left fun v hv => ih v hv (h v hv), List.map_id']
  | hobject entries ih =>
    intro h
    obtain ⟨hascending, hentries⟩ := (isCanonical_object entries).1 h
    have hmap : (entries.map fun e => (e.1, e.2.canonical)) = entries := by
      conv_rhs => rw [← List.map_id entries]
      exact List.map_congr_left fun e he => Prod.ext rfl (ih e he (hentries e he))
    rw [canonical_object, hmap, sortEntries_of_ascending hascending]
  | _ => exact fun _ => rfl

theorem isCanonical_canonical (v : Value) : v.canonical.isCanonical = true := by
  induction v using mem_induct with
  | harray items ih =>
    rw [canonical_array, isCanonical_array]
    intro v hv
    obtain ⟨item, hitem, rfl⟩ := List.mem_map.1 hv
    exact ih item hitem
  | hobject entries ih =>
    rw [canonical_object, isCanonical_object]
    refine ⟨ascending_sortEntries _, fun e he => ?_⟩
    obtain ⟨entry, hentry, rfl⟩ := List.mem_map.1 (mem_sortEntries he)
    exact ih entry hentry
  | _ => rfl

theorem hasDistinctKeys_of_isCanonical (v : Value) :
    v.isCanonical = true → v.hasDistinctKeys = true := by
  induction v using mem_induct with
  | harray items ih =>
    rw [isCanonical_array, hasDistinctKeys_array]
    exact fun h v hv => ih v hv (h v hv)
  | hobject entries ih =>
    rw [isCanonical_object, hasDistinctKeys_object]
    rintro ⟨hascending, h⟩
    exact ⟨hascending.nodup_keys, fun e he => ih e he (h e he)⟩
  | _ => exact fun _ => rfl

/-! ### Documents of the same canonical form -/

/-- Documents that differ in the order of entries only: the second has the canonical form of the
first, and no key twice. -/
def Reorders (v w : Value) : Prop := w.hasDistinctKeys = true ∧ w.canonical = v.canonical

theorem Reorders.refl {v : Value} (h : v.hasDistinctKeys = true) : v.Reorders v := ⟨h, rfl⟩

theorem reorders_canonical (v : Value) : v.Reorders v.canonical :=
  ⟨hasDistinctKeys_of_isCanonical _ v.isCanonical_canonical,
    canonical_of_isCanonical _ v.isCanonical_canonical⟩

theorem Reorders.eq_of_plain {v w : Value} (h : v.Reorders w)
    (harray : ∀ items, v ≠ .array items) (hobject : ∀ entries, v ≠ .object entries) : w = v := by
  have hw := h.2
  cases v with
  | array items => exact absurd rfl (harray items)
  | object entries => exact absurd rfl (hobject entries)
  | _ => cases w <;> simp_all [canonical]

theorem Reorders.array {items : List Value} {w : Value} (h : (Value.array items).Reorders w) :
    ∃ items', w = .array items' ∧ List.Forall₂ Reorders items items' := by
  obtain ⟨hdistinct, hw⟩ := h
  rw [canonical_array] at hw
  cases w with
  | array items' =>
    refine ⟨items', rfl, ?_⟩
    rw [canonical_array] at hw
    rw [hasDistinctKeys_array] at hdistinct
    have hmap : items.map canonical = items'.map canonical := (Value.array.inj hw).symm
    have hboth : List.Forall₂ (fun v w => v.canonical = w.canonical) items items' := by
      rw [← List.forall₂_map_right_iff, ← List.forall₂_map_left_iff, List.forall₂_eq_eq_eq]
      exact hmap
    rw [List.forall₂_iff_get] at hboth ⊢
    exact ⟨hboth.1, fun i hi hi' =>
      ⟨hdistinct _ (List.get_mem _ _), (hboth.2 i hi hi').symm⟩⟩
  | _ => simp [canonical] at hw

theorem lookup_canonical {entries : List (String × Value)} (h : (entries.map Prod.fst).Nodup)
    (k : String) :
    (sortEntries (entries.map fun e => (e.1, e.2.canonical))).lookup k =
      (entries.lookup k).map canonical := by
  have hkeys : (entries.map fun e => (e.1, e.2.canonical)).map Prod.fst = entries.map Prod.fst := by
    simp [Function.comp_def]
  rw [lookup_sortEntries (hkeys ▸ h)]
  clear h hkeys
  induction entries with
  | nil => rfl
  | cons e rest ih =>
    rw [List.map_cons, lookup_cons_eq, lookup_cons_eq, ih]
    split_ifs <;> rfl

/-- Entries in another order have the same keys, and values that differ in their orders only. -/
theorem Reorders.object {entries : List (String × Value)} {w : Value}
    (hentries : (entries.map Prod.fst).Nodup) (h : (Value.object entries).Reorders w) :
    ∃ entries', w = .object entries' ∧ (entries'.map Prod.fst).Nodup ∧
      ∀ k, Option.Rel Reorders (entries.lookup k) (entries'.lookup k) := by
  obtain ⟨hdistinct, hw⟩ := h
  rw [canonical_object] at hw
  cases w with
  | object entries' =>
    rw [canonical_object] at hw
    obtain ⟨hnodup, hvalues⟩ := (hasDistinctKeys_object entries').1 hdistinct
    refine ⟨entries', rfl, hnodup, fun k => ?_⟩
    have hlookup : (entries'.lookup k).map canonical = (entries.lookup k).map canonical := by
      rw [← lookup_canonical hnodup, ← lookup_canonical hentries, Value.object.inj hw]
    cases hv : entries.lookup k with
    | none =>
      rw [hv, Option.map_none, Option.map_eq_none_iff] at hlookup
      rw [hlookup]
      exact Option.Rel.none
    | some v =>
      rw [hv, Option.map_some, Option.map_eq_some_iff] at hlookup
      obtain ⟨w, hw', hcanonical⟩ := hlookup
      rw [hw']
      exact Option.Rel.some ⟨hvalues (k, w) (mem_of_lookup hw'), hcanonical⟩
  | _ => simp [canonical] at hw

end Value

end Json

end ContractGen
