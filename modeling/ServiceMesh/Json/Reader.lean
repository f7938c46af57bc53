import ServiceMesh.Json.Basic
import ServiceMesh.Json.Text

/-!
Reading JSON values from bytes. Nesting is bounded, because a reader of untrusted text must not be
led to recurse without end; a value that is only passed over may nest at any depth. There is one
kind of failure, a malformed text, so readers answer with an option.
-/

namespace ServiceMesh.Json

/-- A reader takes a value off the front of the bytes. -/
abbrev Reader (α : Type) := List UInt8 → Option (α × List UInt8)

def isBlank (b : UInt8) : Bool :=
  b = Ascii.space || b = Ascii.newline || b = Ascii.tab || b = Ascii.carriageReturn

def skipBlanks (bs : List UInt8) : List UInt8 := bs.dropWhile isBlank

/-- What follows a given word, if the bytes start with it. -/
def word? (w : List UInt8) (bs : List UInt8) : Option (List UInt8) :=
  if w.isPrefixOf bs then some (bs.drop w.length) else none

/-- What follows a colon. -/
def colon? (bs : List UInt8) : Option (List UInt8) :=
  match skipBlanks bs with
  | Ascii.colon :: rest => some rest
  | _ => none

/-- A string in a place where only a string may stand. -/
def readText : Reader String := fun bs =>
  match skipBlanks bs with
  | Ascii.quote :: rest => Text.read rest
  | _ => none

/-- How many arrays and objects may be open at once. -/
def nestingLimit : Nat := 127

mutual

/-- A value; `room` is how many more arrays and objects may be opened. -/
def readValue (room : Nat) : Nat → Reader Json
  | 0, _ => none
  | fuel + 1, bs =>
    match skipBlanks bs with
    | [] => none
    | b :: rest =>
      if b = Ascii.quote then (Text.read rest).map fun r => (.str r.1, r.2)
      else if b = Ascii.bracketOpen then
        match room with
        | 0 => none
        | room + 1 =>
          match skipBlanks rest with
          | Ascii.bracketClose :: rest => some (.arr [], rest)
          | rest => (readItems room fuel rest).map fun r => (.arr r.1, r.2)
      else if b = Ascii.braceOpen then
        match room with
        | 0 => none
        | room + 1 =>
          match skipBlanks rest with
          | Ascii.braceClose :: rest => some (.obj [], rest)
          | rest => (readMembers room fuel [] rest).map fun r => (.obj r.1, r.2)
      else if b = 0x6E then (word? (Utf8.bytes "ull") rest).map fun r => (.null, r)
      else if b = 0x74 then (word? (Utf8.bytes "rue") rest).map fun r => (.bool true, r)
      else if b = 0x66 then (word? (Utf8.bytes "alse") rest).map fun r => (.bool false, r)
      else (Number.read (b :: rest)).map fun r => (.num r.1, r.2)

/-- The items of an array that has at least one, up to its closing bracket. -/
def readItems (room : Nat) : Nat → Reader (List Json)
  | 0, _ => none
  | fuel + 1, bs => do
    let (v, rest) ← readValue room fuel bs
    match skipBlanks rest with
    | Ascii.comma :: rest =>
      let (vs, rest) ← readItems room fuel rest
      return (v :: vs, rest)
    | Ascii.bracketClose :: rest => return ([v], rest)
    | _ => none

/-- The members of an object that has at least one, up to its closing brace, on top of those read
so far. -/
def readMembers (room : Nat) : Nat → List (String × Json) → Reader (List (String × Json))
  | 0, _, _ => none
  | fuel + 1, members, bs => do
    let (key, rest) ← readText bs
    let (v, rest) ← readValue room fuel (← colon? rest)
    let members := Entries.insert key v members
    match skipBlanks rest with
    | Ascii.comma :: rest => readMembers room fuel members rest
    | Ascii.braceClose :: rest => return (members, rest)
    | _ => none

end

/-- Runs a reader over a whole text; only blanks may follow what it reads. -/
def readAll {α : Type} (read : Reader α) (bs : List UInt8) : Option α := do
  let (v, rest) ← read bs
  if (skipBlanks rest).isEmpty then some v else none

/-- A value, with enough fuel for the bytes at hand. -/
def valueReader (room : Nat) : Reader Json := fun bs => readValue room (2 * bs.length + 2) bs

def parse? (bs : List UInt8) : Option Json := readAll (valueReader nestingLimit) bs

/-! ### Passing over a value -/

/-- What is open around a value that is passed over. -/
inductive Open where
  | array
  | object
  deriving DecidableEq

mutual

/-- Passes over one value and over the rest of everything that is open. -/
def skipValue : Nat → List Open → List UInt8 → Option (List UInt8)
  | 0, _, _ => none
  | fuel + 1, stack, bs =>
    match skipBlanks bs with
    | [] => none
    | b :: rest =>
      if b = Ascii.quote then
        (Text.skip (rest.length + 1) rest).bind (skipAfter fuel stack)
      else if b = Ascii.bracketOpen then
        match skipBlanks rest with
        | Ascii.bracketClose :: rest => skipAfter fuel stack rest
        | rest => skipValue fuel (.array :: stack) rest
      else if b = Ascii.braceOpen then
        match skipBlanks rest with
        | Ascii.braceClose :: rest => skipAfter fuel stack rest
        | rest => skipMember fuel stack rest
      else if b = 0x6E then (word? (Utf8.bytes "ull") rest).bind (skipAfter fuel stack)
      else if b = 0x74 then (word? (Utf8.bytes "rue") rest).bind (skipAfter fuel stack)
      else if b = 0x66 then (word? (Utf8.bytes "alse") rest).bind (skipAfter fuel stack)
      else (Number.skip (b :: rest)).bind (skipAfter fuel stack)

/-- Passes over the rest of a member whose object is not on the stack yet. -/
def skipMember : Nat → List Open → List UInt8 → Option (List UInt8)
  | 0, _, _ => none
  | fuel + 1, stack, bs =>
    match skipBlanks bs with
    | Ascii.quote :: rest => do
      let rest ← Text.skip (rest.length + 1) rest
      skipValue fuel (.object :: stack) (← colon? rest)
    | _ => none

/-- Goes on behind a value. -/
def skipAfter : Nat → List Open → List UInt8 → Option (List UInt8)
  | 0, _, _ => none
  | _, [], bs => some bs
  | fuel + 1, .array :: stack, bs =>
    match skipBlanks bs with
    | Ascii.comma :: rest => skipValue fuel (.array :: stack) rest
    | Ascii.bracketClose :: rest => skipAfter fuel stack rest
    | _ => none
  | fuel + 1, .object :: stack, bs =>
    match skipBlanks bs with
    | Ascii.comma :: rest => skipMember fuel stack rest
    | Ascii.braceClose :: rest => skipAfter fuel stack rest
    | _ => none

end

def skip (bs : List UInt8) : Option (List UInt8) := skipValue (3 * bs.length + 3) [] bs

end ServiceMesh.Json
