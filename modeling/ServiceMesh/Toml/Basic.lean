/-!
TOML values, and documents while they are read. A document is built up statement by statement, and
what a later statement may add to a table depends on how the table came to be: by a header, as a
step on the way of a header, or as a step on the way of a dotted key.
-/

namespace ServiceMesh.Toml

inductive Value where
  | text (s : String)
  | int (i : Int)
  /-- A number with a fraction or an exponent, or none at all, as it was written. -/
  | float (literal : String)
  | bool (b : Bool)
  /-- A date, a time, or both, as it was written. -/
  | date (literal : String)
  | array (items : List Value)
  | table (entries : List (String × Value))
  deriving Inhabited

/-- How a table came to be. -/
inductive Origin where
  /-- It has a header of its own. -/
  | header
  /-- It stands on the way of a header. -/
  | passage
  /-- It stands on the way of a dotted key. -/
  | dotted
  deriving DecidableEq, Repr

/-- An entry of a document under construction. -/
inductive Item where
  | value (v : Value)
  | table (origin : Origin) (entries : List (String × Item))
  /-- Tables under a doubled header, the latest last. -/
  | tables (elements : List (List (String × Item)))

abbrev Entries := List (String × Item)

namespace Entries

/-- Replaces the entry of a key by what a function makes of it, or adds it at the end. -/
def alter (key : String) (f : Option Item → Option Item) : Entries → Option Entries
  | [] => do
    let item ← f none
    return [(key, item)]
  | e :: rest =>
    if e.1 = key then do
      let item ← f (some e.2)
      return (key, item) :: rest
    else do
      let rest ← alter key f rest
      return e :: rest

/-- Changes the last of several tables. -/
def alterLast (f : Entries → Option Entries) : List Entries → Option (List Entries)
  | [] => none
  | [es] => do
    let es ← f es
    return [es]
  | es :: rest => do
    let rest ← alterLast f rest
    return es :: rest

/-- Changes the table that a header leads to. Tables that are missing on the way are created. -/
def alterAt (f : Entries → Option Entries) : List String → Entries → Option Entries
  | [], es => f es
  | key :: path, es =>
    es.alter key fun
      | none => (alterAt f path []).map (.table .passage)
      | some (.table origin inner) => (alterAt f path inner).map (.table origin)
      | some (.tables elements) => (alterLast (alterAt f path) elements).map .tables
      | some (.value _) => none

/-- Opens a table under its own header. It may have been passed by earlier headers, but not opened
or been part of a dotted key. -/
def openTable (key : String) (es : Entries) : Option Entries :=
  es.alter key fun
    | none => some (.table .header [])
    | some (.table .passage inner) => some (.table .header inner)
    | _ => none

/-- Opens the next of several tables under one doubled header. -/
def openElement (key : String) (es : Entries) : Option Entries :=
  es.alter key fun
    | none => some (.tables [[]])
    | some (.tables elements) => some (.tables (elements ++ [[]]))
    | _ => none

/-- Sets the value of a key in the table that a dotted key leads to. The way may not lead into a
table with a header of its own, and the last table of the way has to belong to dotted keys. -/
def assign (v : Value) : List String → Entries → Option Entries
  | [], _ => none
  | [key], es =>
    es.alter key fun
      | none => some (.value v)
      | some _ => none
  | key :: next :: path, es =>
    es.alter key fun
      | none => (assign v (next :: path) []).map (.table .dotted)
      | some (.table origin inner) =>
        if origin = .header ∨ origin = .passage ∧ path = [] then none
        else (assign v (next :: path) inner).map (.table origin)
      | some (.tables elements) =>
        if path = [] then none
        else (alterLast (assign v (next :: path)) elements).map .tables
      | some (.value _) => none

end Entries

mutual

def Item.toValue : Item → Value
  | .value v => v
  | .table _ entries => .table (entryValues entries)
  | .tables elements => .array (tableValues elements)

def entryValues : List (String × Item) → List (String × Value)
  | [] => []
  | (key, item) :: rest => (key, item.toValue) :: entryValues rest

def tableValues : List (List (String × Item)) → List Value
  | [] => []
  | entries :: rest => .table (entryValues entries) :: tableValues rest

end

end ServiceMesh.Toml
