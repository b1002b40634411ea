import ContractGen.Json.Reader.Skim
import ContractGen.Schema.Decode
import ContractGen.Schema.Validity

/-!
# Graphs from texts

`Graph.parse` reads a graph from its JSON text without building the value of the whole text: it
notices what is wrong where it stands. Within a node only name, description and annotations are
checked at once; its other fields wait for the end of the node, where its kind is known.

`Graph.load` and `Graph.loadValue` read a graph and check that it is sound.
-/

namespace ContractGen

namespace Schema

open Json (Value Cursor Failure flawAt mismatchAt placed)

/-- Why a graph cannot be loaded. -/
inductive LoadError where
  /-- The document is no graph. -/
  | document (failure : Failure)
  /-- The graph is not sound. -/
  | graph (error : GraphError)
deriving DecidableEq, Repr

/-- The place that a message gives for a failure. -/
def LoadError.place (failure : Failure) : Json.Place := failure.place.getD ⟨0, 0⟩

/-- The wording of an error. -/
def LoadError.message : LoadError → String
  | .document failure =>
    let place := LoadError.place failure
    s!"Syntax error at line {place.line}, column {place.column}: " ++ failure.message
  | .graph error => error.message

/-! ### Fields read where they stand -/

/-- A value where neither an array nor an object may stand, for a place that asks for `wanted`. -/
def readPlain (wanted : String) (cur : Cursor) : Except Failure (Value × Cursor) :=
  let cur := cur.skipBlanks
  match cur.rest with
  | '[' :: _ => mismatchAt (.wrongType .array wanted) cur.place
  | '\x7b' :: _ => mismatchAt (.wrongType .object wanted) cur.place
  | _ => Json.readScalar cur

/-- A value where no array may stand, for a place that asks for `wanted`. -/
def readNoArray (wanted : String) (depth : Nat) (cur : Cursor) : Except Failure (Value × Cursor) :=
  let cur := cur.skipBlanks
  match cur.rest with
  | '[' :: _ => mismatchAt (.wrongType .array wanted) cur.place
  | _ => Json.readValue depth cur

/-- The complaint about something else than an array or object, which a place asks for. -/
def refusePlain {α : Type} (wanted : String) (cur : Cursor) : Except Failure α := do
  let (v, cur) ← readPlain wanted cur
  mismatchAt (.wrongType v.shape wanted) cur.place

/-- The place of the complaint about a field that stands again: after its key, and after the brace
if the object ends there. -/
def placeOfRepetition (cur : Cursor) : Json.Place :=
  let cur := cur.skipBlanks
  match cur.rest with
  | '\x7d' :: rest => (cur.step '\x7d' rest).place
  | _ => cur.place

/-! ### Nodes -/

/-- The value of a field of a node. -/
def NodeDraft.readField (depth : Nat) (key : String) (cur : Cursor) :
    Except Failure (Value × Cursor) :=
  match key with
  | "nameHint" => readPlain "a string" cur
  | "description" => readPlain "a string" cur
  | "extensions" => readNoArray "a map" depth cur
  | _ => Json.readValue depth cur

/-- One entry of a node, after its key. -/
def NodeDraft.readEntry (depth : Nat) (d : NodeDraft) (key : String) (cur : Cursor) :
    Except Failure (NodeDraft × Cursor) := do
  if d.has key then mismatchAt (.duplicateField key) (placeOfRepetition cur)
  else
    let cur ← Json.readColon cur
    let (v, cur) ← NodeDraft.readField depth key cur
    let d ← placed (d.set key v) cur.place
    return (d, cur)

/-- A node. -/
def Node.read (depth : Nat) (cur : Cursor) : Except Failure (Node × Cursor) :=
  let cur := cur.skipBlanks
  match depth, cur.rest with
  | 0, '\x7b' :: _ => flawAt .tooDeep cur.nextByte
  | depth + 1, '\x7b' :: rest => do
    let (d, cur) ← Json.readEntries (NodeDraft.readEntry depth) {} (cur.step '\x7b' rest)
    let node ← placed d.finish cur.place
    return (node, cur)
  | _, _ => refusePlain Node.title cur

/-- An array of nodes. -/
def Node.readList (depth : Nat) (cur : Cursor) : Except Failure (List Node × Cursor) :=
  let cur := cur.skipBlanks
  match depth, cur.rest with
  | 0, '[' :: _ => flawAt .tooDeep cur.nextByte
  | depth + 1, '[' :: rest => do
    let item (nodes : List Node) (cur : Cursor) : Except Failure (List Node × Cursor) := do
      let (node, cur) ← Node.read depth cur
      return (node :: nodes, cur)
    let (nodes, cur) ← Json.readItems item [] (cur.step '[' rest)
    return (nodes.reverse, cur)
  | _, _ => refusePlain "a sequence" cur

/-! ### Graphs -/

/-- A pointer. -/
def NodeId.read (cur : Cursor) : Except Failure (NodeId × Cursor) := do
  let (v, cur) ← readPlain "usize" cur
  let id ← placed (Decoder.nodeId v) cur.place
  return (id, cur)

/-- One entry of a graph, after its key. -/
def GraphDraft.readEntry (depth : Nat) (d : GraphDraft) (key : String) (cur : Cursor) :
    Except Failure (GraphDraft × Cursor) := do
  match key with
  | "root" =>
    if d.root.isSome then mismatchAt (.duplicateField key) (placeOfRepetition cur)
    else
      let (root, cur) ← NodeId.read (← Json.readColon cur)
      return ({ d with root := some root }, cur)
  | "nodes" =>
    if d.nodes.isSome then mismatchAt (.duplicateField key) (placeOfRepetition cur)
    else
      let (nodes, cur) ← Node.readList depth (← Json.readColon cur)
      return ({ d with nodes := some nodes }, cur)
  | _ =>
    let cur ← Json.skimValue (← Json.readColon cur)
    return (d, cur)

/-- The end of the array of a graph's two fields. -/
def readListEnd (cur : Cursor) : Except Failure Cursor :=
  let cur := cur.skipBlanks
  match cur.rest with
  | [] => flawAt .endInList cur.place
  | ']' :: rest => .ok (cur.step ']' rest)
  | ',' :: rest =>
    let cur := (cur.step ',' rest).skipBlanks
    match cur.rest with
    | ']' :: _ => flawAt .trailingComma cur.nextByte
    | _ => flawAt .trailingCharacters cur.nextByte
  | _ => flawAt .trailingCharacters cur.nextByte

/-- A graph as the array of its two fields, after the bracket. -/
def Graph.readArray (depth : Nat) (cur : Cursor) : Except Failure (Graph × Cursor) := do
  let (more, cur) ← Json.nextItem true cur
  if !more then mismatchAt (Graph.form.tooShort 0) cur.place
  else
    let (root, cur) ← NodeId.read cur
    let (more, cur) ← Json.nextItem false cur
    if !more then mismatchAt (Graph.form.tooShort 1) cur.place
    else
      let (nodes, cur) ← Node.readList depth cur
      let cur ← readListEnd cur
      return ({ root, nodes := nodes.toArray }, cur)

/-- A graph. -/
def Graph.read (depth : Nat) (cur : Cursor) : Except Failure (Graph × Cursor) :=
  let cur := cur.skipBlanks
  match depth, cur.rest with
  | 0, '[' :: _ => flawAt .tooDeep cur.nextByte
  | 0, '\x7b' :: _ => flawAt .tooDeep cur.nextByte
  | depth + 1, '[' :: rest => Graph.readArray depth (cur.step '[' rest)
  | depth + 1, '\x7b' :: rest => do
    let (d, cur) ← Json.readEntries (GraphDraft.readEntry depth) {} (cur.step '\x7b' rest)
    let g ← placed d.finish cur.place
    return (g, cur)
  | _, _ => refusePlain Graph.form.title cur

/-- The graph of a text; nothing is said about its soundness. -/
def Graph.parse (text : String) : Except Failure Graph := do
  let (g, cur) ← Graph.read Json.maxDepth (Cursor.ofText text)
  Json.finish g cur

/-! ### Loading -/

/-- A graph that is read, if it is sound. -/
def Graph.checked (g : Graph) : Except LoadError Graph :=
  match g.validate with
  | .ok () => .ok g
  | .error e => .error (.graph e)

/-- The sound graph of a text. -/
def Graph.load (text : String) : Except LoadError Graph :=
  match Graph.parse text with
  | .ok g => g.checked
  | .error failure => .error (.document failure)

/-- The sound graph of a JSON value. -/
def Graph.loadValue (v : Value) : Except LoadError Graph :=
  match Graph.ofValue v with
  | .ok g => g.checked
  | .error m => .error (.document ⟨.mismatch m, none⟩)

end Schema

end ContractGen
