import ContractGen.Proofs.Skimming
import ContractGen.Schema.Document

/-!
# Graphs read from texts and from values

The reader of graphs goes through a text once, and never has the value of the whole text. Where
that value exists, it gives the graph that the value gives, or else both refuse
(`Graph.read_finish_eq_ok_iff`). Each part of a graph has a lemma that says so: it takes the text at
the place of a value that can be read there, and compares what the reader makes of the text with
what the decoder makes of the value.

The two refuse for different reasons. A reader that stands before a bracket where a text is wanted
refuses it without a look at what follows, and complains of a second field before it reads the
value there; the decoder is told of the whole value and refuses it then.
-/

namespace ContractGen

namespace Schema

open Json (Value Cursor Failure Mismatch Agrees Reading readValue placed)

variable {depth : Nat} {cur cur₁ cur' : Cursor} {v : Value}

/-! ### Fields read where they stand -/

theorem placed_agrees {α : Type} (x : Except Mismatch α) (cur : Cursor) :
    Agrees (placed x cur.place >>= fun a => .ok (a, cur)) x cur := by
  cases x with
  | ok a => rfl
  | error m => exact ⟨_, rfl⟩

theorem readPlain_of_readScalar (wanted : String)
    (h : Json.readScalar cur.skipBlanks = .ok (v, cur')) :
    readPlain wanted cur = .ok (v, cur') := by
  obtain ⟨hlist, hobject, -⟩ := Json.readScalar_plain h
  -- neither of the brackets stands here, so that the last case is taken
  simpa only [readPlain] using h

/-- A place where neither an array nor an object may stand: other values are read, and these are
refused. -/
theorem readPlain_cases (wanted : String) (h : readValue depth cur = .ok (v, cur')) :
    readPlain wanted cur = .ok (v, cur') ∨
      (∃ f, readPlain wanted cur = .error f) ∧
        ((∃ items, v = .array items) ∨ ∃ entries, v = .object entries) := by
  cases Json.reading_of_readValue h with
  | scalar hscalar => exact .inl (readPlain_of_readScalar wanted hscalar)
  | array hrest => exact .inr ⟨⟨_, by simp only [readPlain, hrest]; rfl⟩, .inl ⟨_, rfl⟩⟩
  | object hrest => exact .inr ⟨⟨_, by simp only [readPlain, hrest]; rfl⟩, .inr ⟨_, rfl⟩⟩

theorem readNoArray_cases (wanted : String) (h : readValue depth cur = .ok (v, cur')) :
    readNoArray wanted depth cur = .ok (v, cur') ∨
      (∃ f, readNoArray wanted depth cur = .error f) ∧ ∃ items, v = .array items := by
  unfold readNoArray
  simp only
  split
  · rename_i rest hrest
    refine .inr ⟨⟨_, rfl⟩, ?_⟩
    cases Json.reading_of_readValue h with
    | scalar hscalar => exact absurd hrest ((Json.readScalar_plain hscalar).1 rest)
    | array => exact ⟨_, rfl⟩
    | object hobject => cases hrest.symm.trans hobject
  · left
    rw [Json.readValue_skipBlanks]
    exact h

theorem refusePlain_fails {α : Type} (wanted : String) (cur : Cursor) :
    ∃ f, (refusePlain wanted cur : Except Failure α) = .error f := by
  unfold refusePlain
  cases readPlain wanted cur with
  | ok read => exact ⟨_, rfl⟩
  | error f => exact ⟨f, rfl⟩

/-! ### Nodes -/

theorem NodeDraft.set_fails_of_has {d : NodeDraft} {key : String} (h : d.has key = true)
    (v : Value) : ∃ e, d.set key v = .error e := by
  unfold NodeDraft.has at h
  split at h
  · exact ⟨_, by simp [NodeDraft.set, Decoder.once, h]; rfl⟩
  · exact ⟨_, by simp [NodeDraft.set, Decoder.once, h]; rfl⟩
  · exact ⟨_, by simp [NodeDraft.set, Decoder.once, h]; rfl⟩
  · cases h

/-- A field of a node is read, or else it is one that the node refuses. -/
theorem NodeDraft.readField_cases (key : String) (h : readValue depth cur = .ok (v, cur')) :
    readField depth key cur = .ok (v, cur') ∨
      (∃ f, readField depth key cur = .error f) ∧ ∀ d : NodeDraft, ∃ e, d.set key v = .error e := by
  have htext : ∀ (old : Option (Option String)) (w : Value),
      ((∃ items, w = .array items) ∨ ∃ entries, w = .object entries) →
      ∃ e, Decoder.once key old (Decoder.optional Decoder.text) w = .error e := by
    rintro old w (⟨items, rfl⟩ | ⟨entries, rfl⟩) <;> cases old <;> exact ⟨_, rfl⟩
  unfold readField
  split
  · refine (readPlain_cases "a string" h).imp_right ?_
    rintro ⟨hread, hv⟩
    refine ⟨hread, fun d => ?_⟩
    obtain ⟨e, he⟩ := htext d.nameHint v hv
    exact ⟨e, by simp only [NodeDraft.set, he]; rfl⟩
  · refine (readPlain_cases "a string" h).imp_right ?_
    rintro ⟨hread, hv⟩
    refine ⟨hread, fun d => ?_⟩
    obtain ⟨e, he⟩ := htext d.description v hv
    exact ⟨e, by simp only [NodeDraft.set, he]; rfl⟩
  · refine (readNoArray_cases "a map" h).imp_right ?_
    rintro ⟨hread, items, rfl⟩
    refine ⟨hread, fun d => ?_⟩
    cases hd : d.extensions with
    | none => exact ⟨_, by simp only [NodeDraft.set, hd]; rfl⟩
    | some e => exact ⟨_, by simp only [NodeDraft.set, hd]; rfl⟩
  · exact .inl h

theorem NodeDraft.readEntry_agrees (d : NodeDraft) (key : String)
    (hcolon : Json.readColon cur = .ok cur₁) (h : readValue depth cur₁ = .ok (v, cur')) :
    Agrees (NodeDraft.readEntry depth d key cur) (d.set key v) cur' := by
  unfold NodeDraft.readEntry
  by_cases hhas : d.has key = true
  · rw [if_pos hhas]
    exact .refused ⟨_, rfl⟩ (NodeDraft.set_fails_of_has hhas v)
  · rw [if_neg hhas, hcolon]
    rcases NodeDraft.readField_cases key h with hread | ⟨⟨f, hread⟩, hset⟩
    · simp only [bind, Except.bind, hread]
      exact placed_agrees (d.set key v) cur'
    · exact .refused ⟨f, by simp only [bind, Except.bind, hread]⟩ (hset d)

theorem Node.read_eq_refusePlain (depth : Nat)
    (h : ∀ rest, cur.skipBlanks.rest ≠ '\x7b' :: rest) :
    Node.read depth cur = refusePlain Node.title cur.skipBlanks := by
  unfold Node.read
  simp only
  split
  · rename_i rest hrest
    exact absurd hrest (h _)
  · rename_i rest hrest
    exact absurd hrest (h _)
  · rfl

theorem Node.read_fails (depth : Nat) (h : ∀ rest, cur.skipBlanks.rest ≠ '\x7b' :: rest) :
    ∃ f, Node.read depth cur = .error f := by
  rw [Node.read_eq_refusePlain depth h]
  exact refusePlain_fails _ _

/-- **A node is read from a text as from its value.** -/
theorem Node.read_agrees (h : readValue depth cur = .ok (v, cur')) :
    Agrees (Node.read depth cur) (Node.ofValue v) cur' := by
  cases Json.reading_of_readValue h with
  | scalar hscalar =>
    obtain ⟨-, hobject, -, hv⟩ := Json.readScalar_plain hscalar
    refine .refused (Node.read_fails depth hobject) ?_
    cases v with
    | object entries => exact absurd rfl (hv entries)
    | _ => exact ⟨_, rfl⟩
  | array hrest =>
    exact .refused (Node.read_fails _ fun rest heq => by cases hrest.symm.trans heq) ⟨_, rfl⟩
  | object hrest hentries hlength =>
    simp only [Node.read, hrest, Node.ofValue]
    refine (hentries.foldEntries (fun d key cur cur₁ v cur' hcolon hv =>
      NodeDraft.readEntry_agrees d key hcolon hv) hlength {}).bind fun d => ?_
    exact placed_agrees d.finish cur'

theorem Node.readList_eq_refusePlain (depth : Nat)
    (h : ∀ rest, cur.skipBlanks.rest ≠ '[' :: rest) :
    Node.readList depth cur = refusePlain "a sequence" cur.skipBlanks := by
  unfold Node.readList
  simp only
  split
  · rename_i rest hrest
    exact absurd hrest (h _)
  · rename_i rest hrest
    exact absurd hrest (h _)
  · rfl

theorem Node.readList_fails (depth : Nat) (h : ∀ rest, cur.skipBlanks.rest ≠ '[' :: rest) :
    ∃ f, Node.readList depth cur = .error f := by
  rw [Node.readList_eq_refusePlain depth h]
  exact refusePlain_fails _ _

/-- **An array of nodes is read from a text as from its value.** -/
theorem Node.readList_agrees (h : readValue depth cur = .ok (v, cur')) :
    Agrees (Node.readList depth cur) (Decoder.list Node.ofValue v) cur' := by
  cases Json.reading_of_readValue h with
  | scalar hscalar =>
    obtain ⟨hlist, -, hv, -⟩ := Json.readScalar_plain hscalar
    refine .refused (Node.readList_fails depth hlist) ?_
    cases v with
    | array items => exact absurd rfl (hv items)
    | _ => exact ⟨_, rfl⟩
  | object hrest =>
    exact .refused (Node.readList_fails _ fun rest heq => by cases hrest.symm.trans heq) ⟨_, rfl⟩
  | array hrest hitems hlength =>
    simp only [Node.readList, hrest, Decoder.list, List.mapM_eq_reverse_foldlM_cons]
    refine (hitems.foldItems (fun nodes cur v cur' hv => ?_) hlength []).map
    exact (Node.read_agrees hv).bind fun node => rfl

/-! ### Graphs -/

theorem NodeId.read_agrees (h : readValue depth cur = .ok (v, cur')) :
    Agrees (NodeId.read cur) (Decoder.nodeId v) cur' := by
  unfold NodeId.read
  rcases readPlain_cases "usize" h with hread | ⟨⟨f, hread⟩, hv⟩
  · rw [hread]
    exact placed_agrees (Decoder.nodeId v) cur'
  · refine .refused ⟨f, by rw [hread]; rfl⟩ ?_
    rcases hv with ⟨items, rfl⟩ | ⟨entries, rfl⟩ <;> exact ⟨_, rfl⟩

theorem GraphDraft.set_root {d : GraphDraft} (h : d.root = none) (v : Value) :
    d.set "root" v = (Decoder.nodeId v >>= fun root => .ok { d with root := some root }) := by
  simp only [GraphDraft.set, Decoder.once, h]
  cases Decoder.nodeId v <;> rfl

theorem GraphDraft.set_nodes {d : GraphDraft} (h : d.nodes = none) (v : Value) :
    d.set "nodes" v =
      (Decoder.list Node.ofValue v >>= fun nodes => .ok { d with nodes := some nodes }) := by
  simp only [GraphDraft.set, Decoder.once, h]
  cases Decoder.list Node.ofValue v <;> rfl

theorem GraphDraft.readEntry_agrees (d : GraphDraft) (key : String)
    (hcolon : Json.readColon cur = .ok cur₁) (h : readValue depth cur₁ = .ok (v, cur')) :
    Agrees (GraphDraft.readEntry depth d key cur) (d.set key v) cur' := by
  unfold GraphDraft.readEntry
  split
  · by_cases hsome : d.root.isSome = true
    · rw [if_pos hsome]
      exact .refused ⟨_, rfl⟩ ⟨_, by simp only [GraphDraft.set, Decoder.once, hsome]; rfl⟩
    · rw [if_neg hsome, hcolon, GraphDraft.set_root (by simpa using hsome)]
      exact (NodeId.read_agrees h).bind fun root => rfl
  · by_cases hsome : d.nodes.isSome = true
    · rw [if_pos hsome]
      exact .refused ⟨_, rfl⟩ ⟨_, by simp only [GraphDraft.set, Decoder.once, hsome]; rfl⟩
    · rw [if_neg hsome, hcolon, GraphDraft.set_nodes (by simpa using hsome)]
      exact (Node.readList_agrees h).bind fun nodes => rfl
  · -- a field that no graph has is skipped, up to where its value ends
    rename_i hroot hnodes
    have hset : d.set key v = .ok d := by
      unfold GraphDraft.set
      split
      · exact absurd rfl hroot
      · exact absurd rfl hnodes
      · rfl
    rw [hcolon, hset]
    simp only [bind, Except.bind, Json.skimValue_of_readValue h]
    rfl

theorem readListEnd_of_end (h : Json.nextItem false cur = .ok (false, cur')) :
    readListEnd cur = .ok cur' := by
  obtain ⟨-, rest, hrest, rfl⟩ | ⟨⟨⟩, -⟩ := Json.nextItem_cases h
  simp only [readListEnd, hrest, Json.Frame.closer]

theorem readListEnd_fails (h : Json.nextItem false cur = .ok (true, cur')) :
    ∃ f, readListEnd cur = .error f := by
  obtain ⟨⟨⟩, -⟩ | ⟨-, cur₁, hgoes, -⟩ := Json.nextItem_cases h
  cases hgoes with
  | comma hrest =>
    simp only [readListEnd, hrest]
    split <;> exact ⟨_, rfl⟩

theorem Graph.ofValue_singleton (root : Value) : Graph.ofValue (.array [root]) =
    (Decoder.nodeId root >>= fun _ => .error (Graph.form.tooShort 1)) := by
  change (GraphDraft.set {} "root" root >>= pure) >>= _ = _
  rw [GraphDraft.set_root (d := {}) rfl]
  cases Decoder.nodeId root <;> rfl

theorem Graph.ofValue_array (root nodes : Value) (more : List Value) :
    Graph.ofValue (.array (root :: nodes :: more)) =
      (Decoder.nodeId root >>= fun root => Decoder.list Node.ofValue nodes >>= fun nodes =>
        if more.isEmpty then .ok { root, nodes := nodes.toArray }
        else .error (.wrongLength (more.length + 2) Graph.form.tooLong)) := by
  have hset : Graph.form.setAll (Graph.form.fields.zip (root :: nodes :: more)) =
      (Decoder.nodeId root >>= fun root => Decoder.list Node.ofValue nodes >>= fun nodes =>
        .ok ⟨some root, some nodes⟩) := by
    change (GraphDraft.set {} "root" root >>= fun d => GraphDraft.set d "nodes" nodes >>= pure) = _
    rw [GraphDraft.set_root (d := {}) rfl]
    cases Decoder.nodeId root with
    | error e => rfl
    | ok root =>
      change GraphDraft.set ⟨some root, none⟩ "nodes" nodes >>= pure = _
      rw [GraphDraft.set_nodes (d := ⟨some root, none⟩) rfl, bind_pure]
      rfl
  rw [Graph.ofValue, Form.decode, hset]
  cases Decoder.nodeId root with
  | error e => rfl
  | ok root =>
    cases Decoder.list Node.ofValue nodes with
    | error e => rfl
    | ok nodes => cases more <;> rfl

theorem Graph.readArray_agrees {items : List Value}
    (h : Json.Items depth true cur items cur') :
    Agrees (Graph.readArray depth cur) (Graph.ofValue (.array items)) cur' := by
  unfold Graph.readArray
  cases h with
  | done hnext =>
    rw [hnext]
    exact .refused ⟨_, rfl⟩ ⟨_, rfl⟩
  | item hnext hroot hmore =>
    rw [hnext]
    cases hmore with
    | done hnext' =>
      rw [Graph.ofValue_singleton]
      refine (NodeId.read_agrees hroot).bind fun root => ?_
      exact .refused ⟨_, by simp only [bind, Except.bind, hnext']; rfl⟩ ⟨_, rfl⟩
    | item hnext' hnodes hmore' =>
      rw [Graph.ofValue_array]
      refine (NodeId.read_agrees hroot).bind fun root => ?_
      simp only [hnext']
      refine (Node.readList_agrees hnodes).bind fun nodes => ?_
      cases hmore' with
      | done hnext'' =>
        simp only [readListEnd_of_end hnext'']
        rfl
      | item hnext'' =>
        obtain ⟨f, hf⟩ := readListEnd_fails hnext''
        exact .refused ⟨f, by simp only [hf]; rfl⟩ ⟨_, rfl⟩

theorem Graph.read_eq_refusePlain (depth : Nat)
    (hlist : ∀ rest, cur.skipBlanks.rest ≠ '[' :: rest)
    (hobject : ∀ rest, cur.skipBlanks.rest ≠ '\x7b' :: rest) :
    Graph.read depth cur = refusePlain Graph.form.title cur.skipBlanks := by
  unfold Graph.read
  simp only
  split
  · rename_i rest hrest
    exact absurd hrest (hlist _)
  · rename_i rest hrest
    exact absurd hrest (hobject _)
  · rename_i rest hrest
    exact absurd hrest (hlist _)
  · rename_i rest hrest
    exact absurd hrest (hobject _)
  · rfl

/-- **A graph is read from a text as from its value.** -/
theorem Graph.read_agrees (h : readValue depth cur = .ok (v, cur')) :
    Agrees (Graph.read depth cur) (Graph.ofValue v) cur' := by
  cases Json.reading_of_readValue h with
  | scalar hscalar =>
    obtain ⟨hlist, hobject, hvs, hes⟩ := Json.readScalar_plain hscalar
    rw [Graph.read_eq_refusePlain depth hlist hobject]
    refine .refused (refusePlain_fails _ _) ?_
    cases v with
    | array items => exact absurd rfl (hvs items)
    | object entries => exact absurd rfl (hes entries)
    | _ => exact ⟨_, rfl⟩
  | array hrest hitems hlength =>
    simp only [Graph.read, hrest]
    exact Graph.readArray_agrees hitems
  | object hrest hentries hlength =>
    simp only [Graph.read, hrest, Graph.ofValue, Form.decode]
    refine (hentries.foldEntries (fun d key cur cur₁ v cur' hcolon hv =>
      GraphDraft.readEntry_agrees d key hcolon hv) hlength {}).bind fun d => ?_
    exact placed_agrees d.finish cur'

/-- **The graph of a text is that of its value**, whatever bound the text is read with: it is read
as the graph which the value is read as, or else neither is read. -/
theorem Graph.read_finish_eq_ok_iff (h : readValue depth cur = .ok (v, cur'))
    (hend : Json.finish v cur' = .ok v) (g : Graph) :
    (Graph.read depth cur >>= fun (g, cur) => Json.finish g cur) = .ok g ↔
      Graph.ofValue v = .ok g := by
  have hagrees := Graph.read_agrees h
  cases hv : Graph.ofValue v with
  | ok g' =>
    rw [hv] at hagrees
    have hfinish : Json.finish g' cur' = .ok g' := by
      unfold Json.finish at hend ⊢
      simp only at hend ⊢
      split_ifs at hend ⊢ with hblank
      · rfl
      · cases hend
    rw [(hagrees : Graph.read _ _ = .ok (g', cur'))]
    change Json.finish g' cur' = .ok g ↔ Except.ok g' = .ok g
    rw [hfinish]
    simp
  | error e =>
    rw [hv] at hagrees
    obtain ⟨f, hf⟩ := hagrees
    simp [hf, bind, Except.bind]

end Schema

end ContractGen
