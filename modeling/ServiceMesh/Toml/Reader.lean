import ServiceMesh.Toml.Literal

/-!
Reading TOML documents. A document is a list of statements, one a line: a header opens a table, and
an entry sets a key of the table that was opened last.
-/

namespace ServiceMesh.Toml

def dropBlanks (cs : List Char) : List Char := cs.dropWhile Text.isBlank

/-- Drops a comment up to the end of its line. -/
def dropComment : List Char → Option (List Char)
  | '#' :: rest =>
    let text := rest.takeWhile fun c => c ≠ '\n' && c ≠ '\r'
    if text.any Text.isControl then none else some (rest.drop text.length)
  | cs => some cs

/-- Drops what may follow a statement up to the end of its line; what remains starts with the line
end, or there is nothing. -/
def finishLine (cs : List Char) : Option (List Char) := do
  let rest ← dropComment (dropBlanks cs)
  match rest with
  | [] => some []
  | '\n' :: rest => some rest
  | '\r' :: '\n' :: rest => some rest
  | _ => none

/-- Drops blanks, comments and line ends. -/
def dropLines : Nat → List Char → Option (List Char)
  | 0, cs => some cs
  | fuel + 1, cs => do
    let rest ← dropComment (dropBlanks cs)
    match rest with
    | '\n' :: rest => dropLines fuel rest
    | '\r' :: '\n' :: rest => dropLines fuel rest
    | rest => some rest

def isBareKeyChar (c : Char) : Bool :=
  Literal.isDigit c || ('a' ≤ c && c ≤ 'z') || ('A' ≤ c && c ≤ 'Z') || c = '_' || c = '-'

/-- One part of a key: bare, or between quotes on one line. -/
def readKeyPart (cs : List Char) : Option (String × List Char) :=
  match cs with
  | '"' :: rest => (Text.readBasic rest).map fun r => (String.ofList r.1, r.2)
  | '\'' :: rest => (Text.readLiteral rest).map fun r => (String.ofList r.1, r.2)
  | _ =>
    match cs.takeWhile isBareKeyChar with
    | [] => none
    | part => some (String.ofList part, cs.drop part.length)

/-- The parts of a key with dots between them, and what follows it. -/
def readKey : Nat → List Char → Option (List String × List Char)
  | 0, _ => none
  | fuel + 1, cs => do
    let (part, rest) ← readKeyPart (dropBlanks cs)
    match dropBlanks rest with
    | '.' :: rest =>
      let (parts, rest) ← readKey fuel rest
      return (part :: parts, rest)
    | rest => return ([part], rest)

/-- How deep arrays and tables may stand inside of each other. -/
def nestingLimit : Nat := 80

mutual

def readValue (room : Nat) : Nat → List Char → Option (Value × List Char)
  | 0, _ => none
  | fuel + 1, cs =>
    match cs with
    | '[' :: rest =>
      match room with
      | 0 => none
      | room + 1 => (readItems room fuel rest).map fun r => (.array r.1, r.2)
    | '{' :: rest =>
      match room with
      | 0 => none
      | room + 1 =>
        match dropBlanks rest with
        | '}' :: rest => some (.table [], rest)
        | rest => (readEntries room fuel [] rest).map fun r => (.table (entryValues r.1), r.2)
    | c :: _ =>
      if c = '"' ∨ c = '\'' then (Text.read? cs).map fun r => (.text r.1, r.2)
      else Literal.read? cs
    | [] => none

/-- The items of an array up to its closing bracket; the last one may have a comma behind it. -/
def readItems (room : Nat) : Nat → List Char → Option (List Value × List Char)
  | 0, _ => none
  | fuel + 1, cs => do
    match ← dropLines cs.length cs with
    | ']' :: rest => some ([], rest)
    | rest => do
      let (v, rest) ← readValue room fuel rest
      match ← dropLines rest.length rest with
      | ',' :: rest =>
        let (vs, rest) ← readItems room fuel rest
        return (v :: vs, rest)
      | ']' :: rest => return ([v], rest)
      | _ => none

/-- The entries of a table on one line, of which there is at least one, up to its closing brace. -/
def readEntries (room : Nat) : Nat → Entries → List Char → Option (Entries × List Char)
  | 0, _, _ => none
  | fuel + 1, es, cs => do
    let (key, v, rest) ← readEntry room fuel cs
    let es ← es.assign v key
    match dropBlanks rest with
    | ',' :: rest => readEntries room fuel es rest
    | '}' :: rest => return (es, rest)
    | _ => none

/-- A key, an equals sign and a value. -/
def readEntry (room : Nat) : Nat → List Char → Option (List String × Value × List Char)
  | 0, _ => none
  | fuel + 1, cs => do
    let (key, rest) ← readKey (cs.length + 1) cs
    match rest with
    | '=' :: rest =>
      let (v, rest) ← readValue room fuel (dropBlanks rest)
      return (key, v, rest)
    | _ => none

end

/-- A document while it is read: what there is so far, and the table that was opened last. -/
structure Draft where
  entries : Entries := []
  here : List String := []

/-- Opens the table of a header; the keys before the last one lead to its parent. -/
def Draft.open? (d : Draft) (path : List String) (f : String → Entries → Option Entries) :
    Option Draft := do
  let entries ← d.entries.alterAt (f (path.getLastD "")) path.dropLast
  return { entries, here := path }

/-- One statement, from its first character on, and what follows it on its line. -/
def readStatement (d : Draft) (cs : List Char) : Option (Draft × List Char) :=
  match cs with
  | '[' :: '[' :: rest => do
    let (path, rest) ← readKey (rest.length + 1) rest
    match rest with
    | ']' :: ']' :: rest => return (← d.open? path Entries.openElement, rest)
    | _ => none
  | '[' :: rest => do
    let (path, rest) ← readKey (rest.length + 1) rest
    match rest with
    | ']' :: rest => return (← d.open? path Entries.openTable, rest)
    | _ => none
  | _ => do
    let (key, v, rest) ← readEntry nestingLimit (4 * cs.length + 4) cs
    return ({ d with entries := ← d.entries.alterAt (Entries.assign v key) d.here }, rest)

/-- The statements of a document. -/
def readStatements : Nat → Draft → List Char → Option Draft
  | 0, _, _ => none
  | fuel + 1, d, cs => do
    match ← dropLines cs.length cs with
    | [] => some d
    | rest =>
      let (d, rest) ← readStatement d rest
      readStatements fuel d (← finishLine rest)

/-- The table that a document stands for; a byte order mark in front is passed over. -/
def parse? (text : String) : Option (List (String × Value)) :=
  let cs := match text.toList with
    | '\uFEFF' :: rest => rest
    | cs => cs
  (readStatements (cs.length + 2) {} cs).map fun d => entryValues d.entries

end ServiceMesh.Toml
