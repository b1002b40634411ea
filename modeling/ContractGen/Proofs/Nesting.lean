import ContractGen.Proofs.TextReading

/-!
# How deep documents may be nested

A reader is told how many more arrays and objects may be opened, and complains where one more is.
JSON itself has no such bound: `HasValue` says that a text has a value, however deep it is.

* With a smaller bound a reader does what it does with a larger one, or complains of the depth
  (`OrTooDeep`, `readValue_orTooDeep`, `Graph.read_orTooDeep`).
* A text whose value is no deeper than the bound is read (`readValue_of_depth_le`), and then a graph
  comes from the text just if it comes from the value (`Graph.parse_cases`).
* Fields that no graph has are skipped at any depth, so a text with a deeper value may or may not be
  too deep for a graph.
-/

namespace ContractGen

namespace Json

/-! ### Bounds on the depth -/

/-- `x` is `y`, or else the complaint that arrays and objects are nested too deep. -/
def OrTooDeep {α : Type} (x y : Except Failure α) : Prop :=
  x = y ∨ ∃ place, x = flawAt .tooDeep place

namespace OrTooDeep

variable {α β : Type} {x y : Except Failure α}

theorem refl (x : Except Failure α) : OrTooDeep x x := .inl rfl

theorem bind {f g : α → Except Failure β} (h : OrTooDeep x y) (hf : ∀ a, OrTooDeep (f a) (g a)) :
    OrTooDeep (x >>= f) (y >>= g) := by
  rcases h with rfl | ⟨place, rfl⟩
  · cases x with
    | ok a => exact hf a
    | error e => exact .refl _
  · exact .inr ⟨place, rfl⟩

theorem eq_of_ok {a : α} (h : OrTooDeep x y) (hx : x = .ok a) : y = .ok a := by
  rcases h with rfl | ⟨place, rfl⟩
  · exact hx
  · cases hx

end OrTooDeep

theorem foldItems_orTooDeep {σ : Type} {item item' : σ → Cursor → Except Failure (σ × Cursor)}
    (h : ∀ s cur, OrTooDeep (item s cur) (item' s cur)) (fuel : Nat) (first : Bool) (s : σ)
    (cur : Cursor) :
    OrTooDeep (foldItems item fuel first s cur) (foldItems item' fuel first s cur) := by
  induction fuel generalizing first s cur with
  | zero => exact .refl _
  | succ fuel ih =>
    refine OrTooDeep.bind (.refl _) ?_
    rintro ⟨more, cur⟩
    cases more with
    | false => exact .refl _
    | true => exact (h s cur).bind fun r => ih false r.1 r.2

theorem foldEntries_orTooDeep {σ : Type}
    {entry entry' : σ → String → Cursor → Except Failure (σ × Cursor)}
    (h : ∀ s key cur, OrTooDeep (entry s key cur) (entry' s key cur)) (fuel : Nat) (first : Bool)
    (s : σ) (cur : Cursor) :
    OrTooDeep (foldEntries entry fuel first s cur) (foldEntries entry' fuel first s cur) := by
  induction fuel generalizing first s cur with
  | zero => exact .refl _
  | succ fuel ih =>
    refine OrTooDeep.bind (.refl _) ?_
    rintro ⟨found, cur⟩
    cases found with
    | none => exact .refl _
    | some key => exact (h s key cur).bind fun r => ih false r.1 r.2

variable {depth depth' : Nat} {first : Bool} {cur cur' : Cursor} {v : Value}

/-- What stands at a place begins an array, an object or neither. -/
theorem opening_cases (cs : List Char) :
    (∃ rest, cs = '[' :: rest) ∨ (∃ rest, cs = '\x7b' :: rest) ∨
      (∀ rest, cs ≠ '[' :: rest) ∧ ∀ rest, cs ≠ '\x7b' :: rest := by
  by_cases hlist : ∃ rest, cs = '[' :: rest
  · exact .inl hlist
  · by_cases hobject : ∃ rest, cs = '\x7b' :: rest
    · exact .inr (.inl hobject)
    · exact .inr (.inr ⟨fun rest h => hlist ⟨rest, h⟩, fun rest h => hobject ⟨rest, h⟩⟩)

theorem readValue_of_plain (hlist : ∀ rest, cur.skipBlanks.rest ≠ '[' :: rest)
    (hobject : ∀ rest, cur.skipBlanks.rest ≠ '\x7b' :: rest) :
    readValue depth cur = readScalar cur.skipBlanks := by
  unfold readValue
  simp only
  split
  · rename_i hrest
    exact absurd hrest (hlist _)
  · rename_i hrest
    exact absurd hrest (hobject _)
  · rename_i hrest
    exact absurd hrest (hlist _)
  · rename_i hrest
    exact absurd hrest (hobject _)
  · rfl

/-- **A smaller bound changes nothing but where it is met.** -/
theorem readValue_orTooDeep (h : depth ≤ depth') (cur : Cursor) :
    OrTooDeep (readValue depth cur) (readValue depth' cur) := by
  induction depth generalizing depth' cur with
  | zero =>
    obtain ⟨rest, hrest⟩ | ⟨rest, hrest⟩ | ⟨hlist, hobject⟩ := opening_cases cur.skipBlanks.rest
    · exact .inr ⟨_, by unfold readValue; simp only [hrest]; rfl⟩
    · exact .inr ⟨_, by unfold readValue; simp only [hrest]; rfl⟩
    · rw [readValue_of_plain hlist hobject, readValue_of_plain hlist hobject]
      exact .refl _
  | succ depth ih =>
    obtain ⟨depth', rfl⟩ := Nat.exists_eq_add_one_of_ne_zero (Nat.ne_zero_of_lt h)
    have hvalue : ∀ cur, OrTooDeep (readValue depth cur) (readValue depth' cur) :=
      ih (Nat.le_of_succ_le_succ h)
    obtain ⟨rest, hrest⟩ | ⟨rest, hrest⟩ | ⟨hlist, hobject⟩ := opening_cases cur.skipBlanks.rest
    · unfold readValue
      simp only [hrest]
      refine OrTooDeep.bind (foldItems_orTooDeep (fun items cur => ?_) _ _ _ _) fun _ => .refl _
      exact (hvalue cur).bind fun _ => .refl _
    · unfold readValue
      simp only [hrest]
      refine OrTooDeep.bind (foldEntries_orTooDeep (fun entries key cur => ?_) _ _ _ _)
        fun _ => .refl _
      exact OrTooDeep.bind (.refl _) fun cur => (hvalue cur).bind fun _ => .refl _
    · rw [readValue_of_plain hlist hobject, readValue_of_plain hlist hobject]
      exact .refl _

/-! ### The depth of values -/

mutual

/-- How many arrays and objects of a value lie within each other. -/
def Value.depth : Value → Nat
  | .array items => depthOfItems items + 1
  | .object entries => depthOfEntries entries + 1
  | _ => 0

/-- The greatest depth of an item. -/
def depthOfItems : List Value → Nat
  | [] => 0
  | v :: rest => max v.depth (depthOfItems rest)

/-- The greatest depth of an entry. -/
def depthOfEntries : List (String × Value) → Nat
  | [] => 0
  | (_, v) :: rest => max v.depth (depthOfEntries rest)

end

theorem foldlM_cons {α ε : Type} (done all : List α) :
    all.foldlM (fun done a => (.ok (a :: done) : Except ε (List α))) done =
      .ok (all.reverse ++ done) := by
  induction all generalizing done with
  | nil => rfl
  | cons a all ih =>
    rw [List.foldlM_cons, List.reverse_cons, List.append_assoc]
    exact ih (a :: done)

theorem readValue_of_reading (h : Reading depth cur v cur') :
    readValue depth cur = .ok (v, cur') := by
  cases h with
  | scalar hscalar =>
    obtain ⟨hlist, hobject, -⟩ := readScalar_plain hscalar
    rw [readValue_of_plain hlist hobject, hscalar]
  | @array depth _ _ rest vs hrest hitems hlength =>
    have hfold : Agrees (readItems (fun items cur =>
        readValue depth cur >>= fun r => .ok (r.1 :: items, r.2)) [] (cur.skipBlanks.step '[' rest))
        (vs.foldlM (fun items v => (.ok (v :: items) : Except Failure _)) []) cur' :=
      hitems.foldItems (fun items cur v cur' hv => by simp only [hv]; rfl) hlength []
    rw [foldlM_cons, List.append_nil] at hfold
    unfold readValue
    simp only [hrest]
    exact bind_eq_ok_iff.2 ⟨(vs.reverse, cur'), hfold, by rw [List.reverse_reverse]⟩
  | @object depth _ _ rest es hrest hentries hlength =>
    have hfold : Agrees (readEntries (fun entries key cur => readColon cur >>= fun cur =>
        readValue depth cur >>= fun r => .ok ((key, r.1) :: entries, r.2)) []
        (cur.skipBlanks.step '\x7b' rest))
        (es.foldlM (fun entries e => (.ok (e :: entries) : Except Failure _)) []) cur' := by
      refine hentries.foldEntries (fun entries key cur cur₁ v cur' hcolon hv => ?_) hlength []
      simp only [hcolon, bind, Except.bind, hv]
      rfl
    rw [foldlM_cons, List.append_nil] at hfold
    unfold readValue
    simp only [hrest]
    exact bind_eq_ok_iff.2 ⟨(es.reverse, cur'), hfold, by rw [List.reverse_reverse]⟩

theorem Items.of_depth_le {vs : List Value}
    (hvalue : ∀ cur v cur', readValue depth cur = .ok (v, cur') → v.depth ≤ depth' →
      readValue depth' cur = .ok (v, cur'))
    (h : Items depth first cur vs cur') (hd : depthOfItems vs ≤ depth') :
    Items depth' first cur vs cur' := by
  induction h with
  | done hnext => exact .done hnext
  | item hnext hv _ ih =>
    obtain ⟨hhead, htail⟩ := Nat.max_le.1 hd
    exact .item hnext (hvalue _ _ _ hv hhead) (ih htail)

theorem Entries.of_depth_le {es : List (String × Value)}
    (hvalue : ∀ cur v cur', readValue depth cur = .ok (v, cur') → v.depth ≤ depth' →
      readValue depth' cur = .ok (v, cur'))
    (h : Entries depth first cur es cur') (hd : depthOfEntries es ≤ depth') :
    Entries depth' first cur es cur' := by
  induction h with
  | done hnext => exact .done hnext
  | entry hnext hcolon hv _ ih =>
    obtain ⟨hhead, htail⟩ := Nat.max_le.1 hd
    exact .entry hnext hcolon (hvalue _ _ _ hv hhead) (ih htail)

/-- **The bound that a value needs is its depth.** -/
theorem readValue_of_depth_le (h : readValue depth cur = .ok (v, cur')) (hd : v.depth ≤ depth') :
    readValue depth' cur = .ok (v, cur') := by
  induction depth generalizing depth' cur v cur' with
  | zero =>
    cases reading_of_readValue h with
    | scalar hscalar => exact readValue_of_reading (.scalar hscalar)
  | succ depth ih =>
    cases reading_of_readValue h with
    | scalar hscalar => exact readValue_of_reading (.scalar hscalar)
    | array hrest hitems hlength =>
      obtain ⟨depth', rfl⟩ := Nat.exists_eq_add_one_of_ne_zero (Nat.ne_zero_of_lt hd)
      exact readValue_of_reading (.array hrest
        (hitems.of_depth_le (fun _ _ _ => ih) (Nat.le_of_succ_le_succ hd)) hlength)
    | object hrest hentries hlength =>
      obtain ⟨depth', rfl⟩ := Nat.exists_eq_add_one_of_ne_zero (Nat.ne_zero_of_lt hd)
      exact readValue_of_reading (.object hrest
        (hentries.of_depth_le (fun _ _ _ => ih) (Nat.le_of_succ_le_succ hd)) hlength)

/-- The value of a text, however deep its arrays and objects are. -/
def HasValue (text : String) (v : Value) : Prop :=
  ∃ depth cur, readValue depth (Cursor.ofText text) = .ok (v, cur) ∧ finish v cur = .ok v

theorem hasValue_of_parse {text : String} (h : parse text = .ok v) : HasValue text v := by
  obtain ⟨⟨w, cur⟩, hread, hfinish⟩ := bind_eq_ok_iff.1 h
  obtain rfl : w = v := by
    unfold finish at hfinish
    simp only at hfinish
    split_ifs at hfinish
    · exact Except.ok.inj hfinish
    · cases hfinish
  exact ⟨maxDepth, cur, hread, hfinish⟩

end Json

/-! ### Graphs -/

namespace Schema

open Json (Value Cursor Failure OrTooDeep readValue_orTooDeep)

variable {depth depth' : Nat}

theorem readNoArray_orTooDeep (h : depth ≤ depth') (wanted : String) (cur : Cursor) :
    OrTooDeep (readNoArray wanted depth cur) (readNoArray wanted depth' cur) := by
  unfold readNoArray
  simp only
  split
  · exact .refl _
  · exact readValue_orTooDeep h _

theorem NodeDraft.readEntry_orTooDeep (h : depth ≤ depth') (d : NodeDraft) (key : String)
    (cur : Cursor) :
    OrTooDeep (NodeDraft.readEntry depth d key cur) (NodeDraft.readEntry depth' d key cur) := by
  have hfield : ∀ cur, OrTooDeep (readField depth key cur) (readField depth' key cur) := by
    intro cur
    unfold readField
    split
    · exact .refl _
    · exact .refl _
    · exact readNoArray_orTooDeep h _ _
    · exact readValue_orTooDeep h _
  unfold NodeDraft.readEntry
  split
  · exact .refl _
  · exact OrTooDeep.bind (.refl _) fun cur => (hfield cur).bind fun _ => .refl _

theorem Node.read_orTooDeep (h : depth ≤ depth') (cur : Cursor) :
    OrTooDeep (Node.read depth cur) (Node.read depth' cur) := by
  by_cases hobject : ∃ rest, cur.skipBlanks.rest = '\x7b' :: rest
  · obtain ⟨rest, hrest⟩ := hobject
    cases depth with
    | zero => exact .inr ⟨_, by simp only [Node.read, hrest]; rfl⟩
    | succ depth =>
      obtain ⟨depth', rfl⟩ := Nat.exists_eq_add_one_of_ne_zero (Nat.ne_zero_of_lt h)
      have hentry := NodeDraft.readEntry_orTooDeep (Nat.le_of_succ_le_succ h)
      simp only [Node.read, hrest]
      exact OrTooDeep.bind (Json.foldEntries_orTooDeep hentry _ _ _ _) fun _ => .refl _
  · have hplain : ∀ rest, cur.skipBlanks.rest ≠ '\x7b' :: rest :=
      fun rest hrest => hobject ⟨rest, hrest⟩
    rw [Node.read_eq_refusePlain depth hplain, Node.read_eq_refusePlain depth' hplain]
    exact .refl _

theorem Node.readList_orTooDeep (h : depth ≤ depth') (cur : Cursor) :
    OrTooDeep (Node.readList depth cur) (Node.readList depth' cur) := by
  by_cases hlist : ∃ rest, cur.skipBlanks.rest = '[' :: rest
  · obtain ⟨rest, hrest⟩ := hlist
    cases depth with
    | zero => exact .inr ⟨_, by simp only [Node.readList, hrest]; rfl⟩
    | succ depth =>
      obtain ⟨depth', rfl⟩ := Nat.exists_eq_add_one_of_ne_zero (Nat.ne_zero_of_lt h)
      simp only [Node.readList, hrest]
      refine OrTooDeep.bind (Json.foldItems_orTooDeep (fun nodes cur => ?_) _ _ _ _)
        fun _ => .refl _
      exact (Node.read_orTooDeep (Nat.le_of_succ_le_succ h) cur).bind fun _ => .refl _
  · have hplain : ∀ rest, cur.skipBlanks.rest ≠ '[' :: rest :=
      fun rest hrest => hlist ⟨rest, hrest⟩
    rw [Node.readList_eq_refusePlain depth hplain, Node.readList_eq_refusePlain depth' hplain]
    exact .refl _

theorem GraphDraft.readEntry_orTooDeep (h : depth ≤ depth') (d : GraphDraft) (key : String)
    (cur : Cursor) :
    OrTooDeep (GraphDraft.readEntry depth d key cur) (GraphDraft.readEntry depth' d key cur) := by
  unfold GraphDraft.readEntry
  split
  · exact .refl _
  · split
    · exact .refl _
    · exact OrTooDeep.bind (.refl _) fun cur =>
        (Node.readList_orTooDeep h cur).bind fun _ => .refl _
  · exact .refl _

theorem Graph.readArray_orTooDeep (h : depth ≤ depth') (cur : Cursor) :
    OrTooDeep (Graph.readArray depth cur) (Graph.readArray depth' cur) := by
  refine OrTooDeep.bind (.refl _) ?_
  rintro ⟨_ | _, cur⟩
  · exact .refl _
  refine OrTooDeep.bind (.refl _) fun _ => OrTooDeep.bind (.refl _) ?_
  rintro ⟨_ | _, cur⟩
  · exact .refl _
  · exact (Node.readList_orTooDeep h cur).bind fun _ => .refl _

/-- **A graph is read with a smaller bound as with a larger one**, unless that bound is met. -/
theorem Graph.read_orTooDeep (h : depth ≤ depth') (cur : Cursor) :
    OrTooDeep (Graph.read depth cur) (Graph.read depth' cur) := by
  obtain ⟨rest, hrest⟩ | ⟨rest, hrest⟩ | ⟨hlist, hobject⟩ :=
    Json.opening_cases cur.skipBlanks.rest
  · cases depth with
    | zero => exact .inr ⟨_, by simp only [Graph.read, hrest]; rfl⟩
    | succ depth =>
      obtain ⟨depth', rfl⟩ := Nat.exists_eq_add_one_of_ne_zero (Nat.ne_zero_of_lt h)
      simp only [Graph.read, hrest]
      exact Graph.readArray_orTooDeep (Nat.le_of_succ_le_succ h) _
  · cases depth with
    | zero => exact .inr ⟨_, by simp only [Graph.read, hrest]; rfl⟩
    | succ depth =>
      obtain ⟨depth', rfl⟩ := Nat.exists_eq_add_one_of_ne_zero (Nat.ne_zero_of_lt h)
      have hentry := GraphDraft.readEntry_orTooDeep (Nat.le_of_succ_le_succ h)
      simp only [Graph.read, hrest]
      exact OrTooDeep.bind (Json.foldEntries_orTooDeep hentry _ _ _ _) fun _ => .refl _
  · rw [Graph.read_eq_refusePlain depth hlist hobject,
      Graph.read_eq_refusePlain depth' hlist hobject]
    exact .refl _

/-- **The graph of a text is that of its value, or the text is too deep.** -/
theorem Graph.parse_cases {text : String} {v : Value} (h : Json.HasValue text v) :
    (∀ g, Graph.parse text = .ok g ↔ Graph.ofValue v = .ok g) ∨
      Json.maxDepth < v.depth ∧ ∃ place, Graph.parse text = Json.flawAt .tooDeep place := by
  obtain ⟨depth, cur, hread, hend⟩ := h
  by_cases hd : v.depth ≤ Json.maxDepth
  · exact .inl (Graph.read_finish_eq_ok_iff (Json.readValue_of_depth_le hread hd) hend)
  · -- with a bound that is large enough for both, the text is read as its value
    have hread' := (readValue_orTooDeep (Nat.le_max_left depth Json.maxDepth) _).eq_of_ok hread
    have hiff := Graph.read_finish_eq_ok_iff hread' hend
    rcases Graph.read_orTooDeep (Nat.le_max_right depth Json.maxDepth) (Cursor.ofText text) with
      heq | ⟨place, hdeep⟩
    · rw [← heq] at hiff
      exact .inl hiff
    · exact .inr ⟨Nat.lt_of_not_le hd, place, by simp only [Graph.parse, hdeep]; rfl⟩

end Schema

end ContractGen
