import ContractGen.Json.Double

/-!
# JSON values

`Value` is a JSON document as data. An object is the list of its entries, in the order and with
the repetitions of its text; `Value.canonical` is the form in which every object lists each key
once, in ascending order of code points, with the value that came last.
-/

namespace ContractGen

namespace Json

/-- A JSON number: an integer that fits in 64 bits, with or without a sign, or a double. -/
inductive Number where
  /-- An integer from `-2 ^ 63` to `2 ^ 64 - 1`. -/
  | int (n : Int)
  /-- Any other number. -/
  | double (d : Double)
deriving DecidableEq, Repr

/-- A JSON value. -/
inductive Value where
  /-- The literal `null`. -/
  | null
  /-- The literals `true` and `false`. -/
  | bool (b : Bool)
  /-- A number. -/
  | number (n : Number)
  /-- A string. -/
  | string (s : String)
  /-- An array. -/
  | array (items : List Value)
  /-- An object, as the list of its entries. -/
  | object (entries : List (String × Value))
deriving Inhabited, Repr

/-- Set the value of a key in a list of entries that is in ascending order of keys. -/
def insertEntry {α : Type} (key : String) (value : α) : List (String × α) → List (String × α)
  | [] => [(key, value)]
  | (k, v) :: rest =>
    if key < k then (key, value) :: (k, v) :: rest
    else if key = k then (key, value) :: rest
    else (k, v) :: insertEntry key value rest

/-- The entries in ascending order of keys, each key once with the value that came last. -/
def sortEntries {α : Type} (entries : List (String × α)) : List (String × α) :=
  entries.foldl (fun sorted entry => insertEntry entry.1 entry.2 sorted) []

namespace Value

/-- The integer `n`, for one within the range of `Number.int`. -/
def int (n : Int) : Value := .number (.int n)

/-- A string, or `null` if there is none. -/
def ofOption : Option String → Value
  | some s => .string s
  | none => .null

/-- The text of a string value. -/
def string? : Value → Option String
  | .string s => some s
  | _ => none

/-- The integer of a number that fits in 64 bits with a sign. -/
def int64? : Value → Option Int
  | .number (.int n) =>
    if -(1 <<< 63 : Nat) ≤ n && n < (1 <<< 63 : Nat) then some n else none
  | _ => none

/-- Whether the value is `null`. -/
def isNull : Value → Bool
  | .null => true
  | _ => false

/-- The value of a key in an object, the first if there are several. -/
def get? (v : Value) (key : String) : Option Value :=
  match v with
  | .object entries => entries.lookup key
  | _ => none

mutual

/-- The same document with every object in canonical form. -/
def canonical : Value → Value
  | .array items => .array (canonicalList items)
  | .object entries => .object (sortEntries (canonicalEntries entries))
  | v => v

/-- `canonical` on each value of a list. -/
def canonicalList : List Value → List Value
  | [] => []
  | v :: rest => v.canonical :: canonicalList rest

/-- `canonical` on the value of each entry. -/
def canonicalEntries : List (String × Value) → List (String × Value)
  | [] => []
  | (key, v) :: rest => (key, v.canonical) :: canonicalEntries rest

end

end Value

end Json

end ContractGen
