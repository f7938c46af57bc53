import ServiceMesh.Json.Reader

/-!
Reading records, that is objects with known members. A record may be written as an object, with its
members in any order, or as an array of its members in their order. An unknown member is passed
over, a member given twice is refused, and a member with a default may be missing.
-/

namespace ServiceMesh.Json

/-- A member of the record `σ`: its name, how it is read into a record that does not have it yet,
and whether a record has it. -/
structure Field (σ : Type) where
  name : String
  read : σ → Reader σ
  isSet : σ → Bool
  /-- A member that may be missing at the end of the array form. -/
  hasDefault : Bool := false

namespace Record

variable {σ : Type}

/-- The members of the object form up to the closing brace. -/
def readMembers (fields : List (Field σ)) : Nat → σ → Reader σ
  | 0, _, _ => none
  | fuel + 1, r, bs => do
    let (key, rest) ← readText bs
    let rest ← colon? rest
    let (r, rest) ← match fields.find? (·.name = key) with
      | some field => if field.isSet r then none else field.read r rest
      | none => (skip rest).map fun rest => (r, rest)
    match skipBlanks rest with
    | Ascii.comma :: rest => readMembers fields fuel r rest
    | Ascii.braceClose :: rest => return (r, rest)
    | _ => none

/-- The members of the array form, up to the closing bracket. -/
def readItems : List (Field σ) → σ → Reader σ
  | [], r, bs =>
    match skipBlanks bs with
    | Ascii.bracketClose :: rest => some (r, rest)
    | _ => none
  | [field], r, bs => do
    let (r, rest) ← field.read r bs
    match skipBlanks rest with
    | Ascii.bracketClose :: rest => some (r, rest)
    | _ => none
  | field :: next :: fields, r, bs => do
    let (r, rest) ← field.read r bs
    match skipBlanks rest with
    | Ascii.comma :: rest => readItems (next :: fields) r rest
    | Ascii.bracketClose :: rest =>
      if (next :: fields).all (·.hasDefault) then some (r, rest) else none
    | _ => none

/-- A record in either form, on top of the empty record. -/
def read (fields : List (Field σ)) (empty : σ) : Reader σ := fun bs =>
  match skipBlanks bs with
  | Ascii.braceOpen :: rest =>
    match skipBlanks rest with
    | Ascii.braceClose :: rest => some (empty, rest)
    | rest => readMembers fields (rest.length + 1) empty rest
  | Ascii.bracketOpen :: rest =>
    match skipBlanks rest with
    | Ascii.bracketClose :: rest =>
      if fields.all (·.hasDefault) then some (empty, rest) else none
    | rest => readItems fields empty rest
  | _ => none

end Record

/-- A whole number of a given range. -/
def readInt (low high : Int) : Reader Int := fun bs => do
  let (n, rest) ← Number.read (skipBlanks bs)
  let i ← (Json.num n).int?
  if low ≤ i ∧ i ≤ high then some (i, rest) else none

/-- The members of an object of texts up to the closing brace. -/
def readTextMembers : Nat → KeyMap String → Reader (KeyMap String)
  | 0, _, _ => none
  | fuel + 1, m, bs => do
    let (key, rest) ← readText bs
    let (v, rest) ← readText (← colon? rest)
    match skipBlanks rest with
    | Ascii.comma :: rest => readTextMembers fuel (m.insert key v) rest
    | Ascii.braceClose :: rest => return (m.insert key v, rest)
    | _ => none

/-- An object of texts; of two members with one key the later wins. -/
def readTextMap : Reader (KeyMap String) := fun bs =>
  match skipBlanks bs with
  | Ascii.braceOpen :: rest =>
    match skipBlanks rest with
    | Ascii.braceClose :: rest => some (∅, rest)
    | rest => readTextMembers (rest.length + 1) ∅ rest
  | _ => none

end ServiceMesh.Json
