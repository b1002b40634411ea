import ContractGen.Json.Writer
import ContractGen.Template
import ContractGen.Text.Cluster

/-!
# Rendering templates

`Template.render` fills a template with a model. A path is looked up in the items of the loops
around it, from the inside out, and then in the model. Within a loop `loop.index`, `loop.index0`,
`loop.first` and `loop.last` tell which item it is. A value that is missing counts as false in a
condition and is an error elsewhere.
-/

namespace ContractGen

namespace Template

open Json (Value)

/-- Why a template cannot be filled. -/
inductive RenderError where
  /-- A value is missing. -/
  | undefined (path : Path)
  /-- A loop is over something that has no items. -/
  | noItems (path : Path)
  /-- A loop is over an object. -/
  | overObject (path : Path)
deriving DecidableEq, Repr

/-- The item of a loop, and which one it is. -/
structure Scope where
  /-- The name of the item. -/
  name : String
  /-- The item. -/
  item : Value
  /-- How many items come before it. -/
  index : Nat
  /-- How many items there are. -/
  count : Nat

/-- The index that a segment of a path means in an array. -/
def arrayIndex? (segment : String) : Option Nat :=
  let digits := segment.toList
  if digits.isEmpty || !digits.all Char.isDigit then none
  else if digits.head? == some '0' && digits.length != 1 then none
  else some (digits.foldl (fun n c => 10 * n + (c.toNat - '0'.toNat)) 0)

/-- The part of a value that a segment of a path leads to. -/
def child? (v : Value) (segment : String) : Option Value :=
  match v with
  | .object entries => entries.lookup segment
  | .array items => (arrayIndex? segment).bind fun i => items[i]?
  | _ => none

/-- The part of a value that a path leads to. -/
def descend? (v : Value) (path : Path) : Option Value := path.foldlM child? v

namespace Scope

/-- What a path means within a loop. -/
def find? (s : Scope) (path : Path) : Option Value :=
  match path with
  | ["loop", "index"] => some (.int (s.index + 1))
  | ["loop", "index0"] => some (.int s.index)
  | ["loop", "first"] => some (.bool (s.index == 0))
  | ["loop", "last"] => some (.bool (s.index + 1 == s.count))
  | head :: rest => if head = s.name then descend? s.item rest else none
  | [] => none

end Scope

/-- What a path means: within the innermost loop that knows it, or else in the model. -/
def lookup (scopes : List Scope) (model : Value) (path : Path) : Option Value :=
  (scopes.findSome? (·.find? path)).or (descend? model path)

/-- Whether a value counts as true. -/
def isTrue : Value → Bool
  | .null => false
  | .bool b => b
  | .number (.int n) => n != 0
  | .number (.double d) => !d.isZero
  | .string s => !s.isEmpty
  | .array items => !items.isEmpty
  | .object entries => !entries.isEmpty

/-- In templates a double is always positional, and a whole one has no point. -/
def doubleLayout : Json.Layout := ⟨fun _ => true, []⟩

mutual

/-- How a value is filled in. -/
def valueText : Value → String
  | .null => ""
  | .bool b => if b then "true" else "false"
  | .number (.int n) => toString n
  | .number (.double d) => String.ofList (doubleLayout.write d)
  | .string s => s
  | .array items => "[" ++ String.intercalate ", " (valueTexts items) ++ "]"
  | .object _ => "[object]"

/-- `valueText` of each value. -/
def valueTexts : List Value → List String
  | [] => []
  | v :: rest => valueText v :: valueTexts rest

end

/-- The items of a value that a loop is over. -/
def items (path : Path) : Value → Except RenderError (List Value)
  | .array items => .ok items
  | .string s => .ok ((Text.clusters s.toList).map fun c => .string (String.ofList c))
  | .object _ => .error (.overObject path)
  | _ => .error (.noItems path)

/-- The scopes of the items of a loop. -/
def scopesOf (name : String) (items : List Value) : List Scope :=
  items.mapIdx fun index item => ⟨name, item, index, items.length⟩

mutual

/-- Fill a block. -/
def renderBlock (model : Value) (scopes : List Scope) : Block → Except RenderError String
  | .text s => .ok s
  | .value path =>
    match lookup scopes model path with
    | some v => .ok (valueText v)
    | none => .error (.undefined path)
  | .cond path present absent =>
    if ((lookup scopes model path).map isTrue).getD false then renderBlocks model scopes present
    else renderBlocks model scopes absent
  | .loop name path body =>
    match lookup scopes model path with
    | none => .error (.undefined path)
    | some v => do
      let parts ← (scopesOf name (← items path v)).mapM fun s =>
        renderBlocks model (s :: scopes) body
      return String.join parts

/-- Fill a list of blocks. -/
def renderBlocks (model : Value) (scopes : List Scope) : List Block → Except RenderError String
  | [] => .ok ""
  | block :: rest => do
    let first ← renderBlock model scopes block
    return first ++ (← renderBlocks model scopes rest)

end

/-- Fill a template with a model. -/
def render (t : Template) (model : Value) : Except RenderError String := renderBlocks model [] t

end Template

end ContractGen
