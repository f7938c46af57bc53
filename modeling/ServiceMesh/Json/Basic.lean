import ServiceMesh.KeyMap
import ServiceMesh.Json.Number

/-!
JSON values. The members of an object are kept in increasing key order with one value a key, which
is the form every reader produces and every writer expects.
-/

namespace ServiceMesh

inductive Json where
  | null
  | bool (b : Bool)
  | num (n : Json.Number)
  | str (s : String)
  | arr (items : List Json)
  | obj (members : List (String × Json))
  deriving Inhabited

namespace Json

/-- An object from members in any order; of two members with one key the later wins. -/
def ofMembers (members : List (String × Json)) : Json :=
  .obj (members.foldl (fun m e => Entries.insert e.1 e.2 m) [])

def ofNat (n : Nat) : Json := .num (.unsigned n.toUInt64)

/-- An integer of at most 64 bits. -/
def ofInt (i : Int) : Json :=
  if 0 ≤ i then ofNat i.toNat else .num (.negative (Int64.ofInt i))

def member? (key : String) : Json → Option Json
  | .obj members => Entries.lookup key members
  | _ => none

def str? : Json → Option String
  | .str s => some s
  | _ => none

def bool? : Json → Option Bool
  | .bool b => some b
  | _ => none

def items? : Json → Option (List Json)
  | .arr items => some items
  | _ => none

/-- The value of a whole number written without point and exponent. -/
def int? : Json → Option Int
  | .num (.unsigned n) => some n.toNat
  | .num (.negative n) => some n.toInt
  | _ => none

end Json

end ServiceMesh
