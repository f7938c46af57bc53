import ServiceMesh.Text.Blank
import ServiceMesh.Text.Case
import ServiceMesh.Text.Hex
import ServiceMesh.Url.Percent
import ServiceMesh.Url.Punycode

/-!
Hosts of addresses: names, addresses of version four and of version six. The host of a web address
is brought into one form: small letters, four decimal numbers, or the shortest of the forms with
colons. Any other scheme has a host of its own kind, which stays as it is written.
-/

namespace ServiceMesh.Host

/-! ### Version four -/

/-- One number of an address: decimal, octal after a zero, or hexadecimal after a zero and an x.
An empty text is no number. -/
def number? (cs : List Char) : Option Nat :=
  let read (radix : Nat) (ds : List Char) : Option Nat :=
    ds.foldlM (fun n c =>
      match Ascii.hexDigit? c.toNat.toUInt8 with
      | some d => if c.toNat < 0x80 ∧ d < radix then some (n * radix + d) else none
      | none => none) 0
  match cs with
  | [] => none
  | '0' :: x :: ds => if x = 'x' ∨ x = 'X' then read 16 ds else read 8 (x :: ds)
  | ds => read 10 ds

/-- The parts of a name between its dots; an empty part at the end does not count. -/
def parts (name : List Char) : List (List Char) :=
  let ps := Blank.splitOn '.' name
  if ps.getLastD [] = [] ∧ 1 < ps.length then ps.dropLast else ps

/-- Whether a name has to be an address of version four. -/
def endsInNumber (name : List Char) : Bool :=
  let last := (parts name).getLastD []
  last ≠ [] && (last.all Char.isDigit || (number? last).isSome)

/-- Four numbers; the last one of fewer stands for all the bytes that are left. -/
def version4? (name : List Char) : Option String := do
  let ps := parts name
  if 4 < ps.length then none
  let ns ← ps.mapM number?
  let last ← ns.getLast?
  let front := ns.dropLast
  if front.any (255 < ·) ∨ Nat.pow 256 (5 - ns.length) ≤ last then none
  let value := (front.zipIdx.map fun n => n.1 * Nat.pow 256 (3 - n.2)).foldl (· + ·) last
  return ".".intercalate ([3, 2, 1, 0].map fun i => toString (value / Nat.pow 256 i % 256))

/-! ### Version six -/

/-- A group of up to four hexadecimal digits. -/
def group? (cs : List Char) : Option Nat :=
  if cs = [] ∨ 4 < cs.length then none
  else cs.foldlM (fun n c =>
    if c.toNat < 0x80 then (Ascii.hexDigit? c.toNat.toUInt8).map (n * 16 + ·) else none) 0

/-- A decimal number below 256 without leading zeros. -/
def octet? (cs : List Char) : Option Nat :=
  if cs = [] ∨ ¬cs.all Char.isDigit ∨ cs.head? = some '0' ∧ 1 < cs.length then none
  else
    let n := cs.foldl (fun n c => n * 10 + (c.toNat - 48)) 0
    if n < 256 then some n else none

/-- The groups of one side of an address; the last one may be written with dots, as two groups. -/
def groups? : List (List Char) → Option (List Nat)
  | [] => some []
  | [g] =>
    if '.' ∈ g then
      match (Blank.splitOn '.' g).mapM octet? with
      | some [a, b, c, d] => some [a * 256 + b, c * 256 + d]
      | _ => none
    else (group? g).map fun n => [n]
  | g :: gs => do
    let n ← group? g
    let ns ← groups? gs
    return n :: ns

def sideGroups? (cs : List Char) : Option (List Nat) :=
  if cs = [] then some [] else groups? (Blank.splitOn ':' cs)

/-- Cuts at the first pair of colons. -/
def cutAtPair : List Char → Option (List Char × List Char)
  | ':' :: ':' :: rest => some ([], rest)
  | c :: rest => (cutAtPair rest).map fun r => (c :: r.1, r.2)
  | [] => none

def version6? (cs : List Char) : Option (List Nat) := do
  match cutAtPair cs with
  | none =>
    let ns ← sideGroups? cs
    if ns.length = 8 then some ns else none
  | some (left, right) =>
    if '.' ∈ left then none
    let l ← sideGroups? left
    let r ← sideGroups? right
    if l.length + r.length < 8 then
      return l ++ List.replicate (8 - l.length - r.length) 0 ++ r
    else none

/-- Where the longest run of zeros starts and how long it is; of equal runs the first counts. -/
def longestRun (ns : List Nat) : Nat × Nat :=
  (List.range ns.length).foldl (fun best i =>
    let run := ((ns.drop i).takeWhile (· = 0)).length
    if best.2 < run then (i, run) else best) (0, 0)

/-- The shortest form; the longest run of two zeros or more is left out. -/
def renderVersion6 (ns : List Nat) : String :=
  let (start, run) := longestRun ns
  let join (ns : List Nat) : String := ":".intercalate (ns.map Hex.ofNat)
  "[" ++ (if run < 2 then join ns
    else join (ns.take start) ++ "::" ++ join (ns.drop (start + run))) ++ "]"

/-! ### Names -/

/-- What a character of a name is taken for: some stand for others, and some for nothing. -/
def canonical (c : Char) : List Char :=
  if c ∈ ['\u00AD', '\u200B', '\u2060', '\uFEFF'] then []
  else if c ∈ ['\u3002', '\uFF0E', '\uFF61'] then ['.']
  else if 0xFF01 ≤ c.toNat ∧ c.toNat ≤ 0xFF5E then [(Char.ofNat (c.toNat - 0xFEE0)).toLower]
  else if c = 'ß' then [c]
  else if c = 'İ' then ['i', '\u0307']
  else [Case.lowerChar c]

/-- A character that may not stand in a name. -/
def isForbidden (c : Char) : Bool :=
  c.toNat ≤ 0x20 || 0x7F ≤ c.toNat && c.toNat ≤ 0x9F || c.toNat = 0xFFFD ||
    c ∈ ['#', '%', '/', ':', '<', '>', '?', '@', '[', '\\', ']', '^', '|']

/-- A label in ASCII. A label that is written in digits has to stand for one that needs them. -/
def label? (cs : List Char) : Option (List Char) :=
  let isWritten := "xn--".toList.isPrefixOf cs
  if ¬cs.all (·.toNat < 0x80) then
    if isWritten then none else some ("xn--".toList ++ Punycode.encode cs)
  else if isWritten then
    match Punycode.decode? (cs.drop 4) with
    | some out =>
      if out.all (·.toNat < 0x80) ∨ out.any isForbidden ∨ out.flatMap canonical ≠ out then none
      else some cs
    | none => none
  else some cs

def name? (text : String) : Option (List Char) := do
  let cs := text.toList.flatMap canonical
  if cs.any isForbidden then none
  let labels ← (Blank.splitOn '.' cs).mapM label?
  return List.intercalate ['.'] labels

/-- The host of a web address. -/
def parse? (cs : List Char) : Option String :=
  match cs with
  | '[' :: rest =>
    if rest.getLast? = some ']' then (version6? rest.dropLast).map renderVersion6 else none
  | _ => do
    let text ← Utf8.text? (Percent.decode (Utf8.bytes (String.ofList cs)))
    let name ← name? text
    if name = [] then none
    else if endsInNumber name then version4? name
    else return String.ofList name

/-- The host of an address of any other scheme. -/
def parseOpaque? (cs : List Char) : Option String :=
  match cs with
  | '[' :: _ => parse? cs
  | _ =>
    if cs.any fun c => c ∈ ['\x00', ' ', '#', '/', ':', '<', '>', '?', '@', '[', '\\', ']', '^', '|']
    then none
    else some (Percent.encode Percent.isControl (String.ofList cs))

end ServiceMesh.Host
