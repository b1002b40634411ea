/-!
# TOML values

`Value` is a TOML document as data. Of numbers and dates only that is kept which a reader can
refuse them for. A table remembers how it came to be: that decides what may still be added to it.

The functions here add to a table what a header or a key of the document says, and fail where the
document contradicts itself.
-/

namespace ContractGen

namespace Toml

/-- How a table came to be. -/
inductive Origin where
  /-- It is the whole document, or a header names it. -/
  | header
  /-- A header names a table below it. -/
  | above
  /-- A dotted key names something in it. -/
  | dotted
  /-- It is written in place, and closed. -/
  | inline
deriving DecidableEq, Repr

/-- A TOML value. -/
inductive Value where
  /-- A string. -/
  | string (s : String)
  /-- An integer. -/
  | integer (n : Int)
  /-- A number with a point or exponent, and whether a double has room for it. -/
  | float (fits : Bool)
  /-- A truth value. -/
  | boolean (b : Bool)
  /-- A date, a time, or both. -/
  | datetime
  /-- An array that is written in place. -/
  | array (items : List Value)
  /-- An array of tables that headers name, one each. -/
  | tables (items : List Value)
  /-- A table. -/
  | table (origin : Origin) (entries : List (String × Value))
deriving Repr

namespace Value

/-- The empty table of an origin. -/
def emptyTable (origin : Origin) : Value := .table origin []

/-- Set the value of a key by what it was before; a new key comes last. -/
def alter (key : String) (change : Option Value → Option Value) :
    List (String × Value) → Option (List (String × Value))
  | [] => (change none).map fun v => [(key, v)]
  | (k, v) :: rest =>
    if k = key then (change (some v)).map fun v => (k, v) :: rest
    else (alter key change rest).map ((k, v) :: ·)

/-- Change the last item of a list. -/
def alterLast (change : Value → Option Value) (items : List Value) : Option (List Value) :=
  items.getLast?.bind fun last => (change last).map fun v => items.dropLast ++ [v]

/-- Change the table that the keys of a header lead to. Tables on the way are made if need be, and
of an array of tables the last counts. -/
def alterAt (change : List (String × Value) → Option (List (String × Value))) :
    List String → Value → Option Value
  | [], .table origin entries => (change entries).map (.table origin)
  | key :: path, .table origin entries =>
    let enter : Option Value → Option Value
      | none => alterAt change path (emptyTable .above)
      | some (.tables items) => (alterLast (alterAt change path) items).map .tables
      | some (.table .inline _) => none
      | some v => alterAt change path v
    (alter key enter entries).map (.table origin)
  | _, _ => none

/-- Add what a dotted key says: `path` leads to the table, and `key` is its last part. Tables on
the way may have been made by dotted keys or above headers only, and the last by dotted keys
only. -/
def insertDotted (key : String) (v : Value) : List String → Value → Option Value
  | [], .table .dotted entries => insertNew key v .dotted entries
  | k :: path, .table origin entries =>
    let enter : Option Value → Option Value
      | none => insertDotted key v path (emptyTable .dotted)
      | some (.tables items) => (alterLast (insertDotted key v path) items).map .tables
      | some (.table .dotted es) => insertDotted key v path (.table .dotted es)
      | some (.table .above es) => insertDotted key v path (.table .above es)
      | some _ => none
    (alter k enter entries).map (.table origin)
  | _, _ => none
where
  /-- Add a key that is not there yet. -/
  insertNew (key : String) (v : Value) (origin : Origin) (entries : List (String × Value)) :
      Option Value :=
    if (entries.lookup key).isSome then none else some (.table origin (entries ++ [(key, v)]))

/-- Add what a key of a table says, given the parts of the key and its value. -/
def insertKey (table : Value) (keys : List String) (v : Value) : Option Value :=
  match keys.reverse, table with
  | [key], .table origin entries => insertDotted.insertNew key v origin entries
  | key :: path, table => insertDotted key v path.reverse table
  | [], _ => none

/-- Open the table that a header names by its last key: a new one, or one above a table that a
header named before. -/
def openTable (key : String) (entries : List (String × Value)) : Option (List (String × Value)) :=
  alter key (fun old =>
    match old with
    | none => some (emptyTable .header)
    | some (.table .above es) => some (.table .header es)
    | some _ => none) entries

/-- Open one more table in the array of tables that a header names by its last key. -/
def openItem (key : String) (entries : List (String × Value)) : Option (List (String × Value)) :=
  alter key (fun old =>
    match old with
    | none => some (.tables [emptyTable .header])
    | some (.tables items) => some (.tables (items ++ [emptyTable .header]))
    | some _ => none) entries

/-- Whether an integer has at most 128 bits. -/
def integerFits (n : Int) : Bool := -(1 <<< 127 : Nat) ≤ n && n < (1 <<< 128 : Nat)

mutual

/-- Whether all numbers of a value have room in a reader. -/
def fits : Value → Bool
  | .string _ => true
  | .integer n => integerFits n
  | .float fits => fits
  | .boolean _ => true
  | .datetime => true
  | .array items => allFit items
  | .tables items => allFit items
  | .table _ entries => entriesFit entries

/-- `fits` for all values of a list. -/
def allFit : List Value → Bool
  | [] => true
  | v :: rest => v.fits && allFit rest

/-- `fits` for the values of all entries. -/
def entriesFit : List (String × Value) → Bool
  | [] => true
  | (_, v) :: rest => v.fits && entriesFit rest

end

end Value

end Toml

end ContractGen
