import ServiceMesh.Text.Utf8
import ServiceMesh.Text.Ascii

/-!
Request targets: what a request names as its resource. A target is a path, an asterisk, a host
alone, or a whole address with scheme and host. A fragment is cut off; every other character has to
be one that may stand in its part.
-/

namespace ServiceMesh.Http

structure Target where
  scheme : Option String
  authority : Option String
  /-- Path and query as they were written, without the fragment. It is empty in a target that is
  a host alone. -/
  pathAndQuery : String
  deriving DecidableEq, Repr, Inhabited

namespace Target

/-- The longest text that is accepted, in bytes. -/
def sizeLimit : Nat := 65534

def schemeLimit : Nat := 64

def isSchemeByte (b : UInt8) : Bool :=
  Ascii.isDigit b || (0x61 ≤ b && b ≤ 0x7A) || (0x41 ≤ b && b ≤ 0x5A) ||
    b = 0x2B || b = 0x2D || b = 0x2E || b = 0x7E

/-- A byte that may stand in an authority; the percent sign is judged by its place. -/
def isAuthorityByte (b : UInt8) : Bool :=
  Ascii.isDigit b || (0x61 ≤ b && b ≤ 0x7A) || (0x41 ≤ b && b ≤ 0x5A) ||
    b = 0x21 || b = 0x24 || (0x26 ≤ b && b ≤ 0x2E) || b = 0x3A || b = 0x3B || b = 0x3D ||
    b = 0x40 || b = 0x5B || b = 0x5D || b = 0x5F || b = 0x7E

def endsAuthority (b : UInt8) : Bool := b = Ascii.slash || b = 0x3F || b = 0x23

def isPathByte (b : UInt8) : Bool :=
  b = 0x21 || (0x24 ≤ b && b ≤ 0x3B) || b = 0x3D || (0x40 ≤ b && b ≤ 0x5F) ||
    (0x61 ≤ b && b ≤ 0x7A) || b = 0x7C || b = 0x7E || 0x7F ≤ b ||
    b = 0x22 || b = 0x7B || b = 0x7D

def isQueryByte (b : UInt8) : Bool :=
  b = 0x21 || (0x24 ≤ b && b ≤ 0x3B) || b = 0x3D || (0x3F ≤ b && b ≤ 0x7E) || 0x7F ≤ b

/-- Cuts the fragment off and checks every byte of path and query. -/
def pathAndQuery? (bs : List UInt8) : Option String :=
  let kept := bs.takeWhile (· ≠ 0x23)
  let path := kept.takeWhile (· ≠ 0x3F)
  let query := (kept.drop path.length).drop 1
  if path.all isPathByte && query.all isQueryByte then Utf8.text? kept else none

/-- What is known about an authority while its bytes are looked at. -/
structure AuthorityScan where
  colons : Nat := 0
  opened : Bool := false
  closed : Bool := false
  hasPercent : Bool := false
  endsInAt : Bool := false

/-- One byte further. Colons and percent signs before an at sign belong to the user, those inside
of brackets to an address of version six. -/
def AuthorityScan.step? (s : AuthorityScan) (b : UInt8) : Option AuthorityScan :=
  let s := { s with endsInAt := false }
  if b = Ascii.colon then
    if 8 ≤ s.colons then none else some { s with colons := s.colons + 1 }
  else if b = 0x5B then
    if s.hasPercent || s.opened then none else some { s with opened := true }
  else if b = 0x5D then
    if ¬s.opened || s.closed then none
    else some { s with closed := true, colons := 0, hasPercent := false }
  else if b = 0x40 then some { s with colons := 0, hasPercent := false, endsInAt := true }
  else if b = Ascii.percent then some { s with hasPercent := true }
  else if isAuthorityByte b then some s
  else none

def AuthorityScan.isLegal (s : AuthorityScan) : Bool :=
  s.opened == s.closed && s.colons ≤ 1 && !s.endsInAt && !s.hasPercent

/-- The authority at the front, and what follows it. -/
def authority? (bs : List UInt8) : Option (List UInt8 × List UInt8) := do
  let front := bs.takeWhile fun b => !endsAuthority b
  let s ← front.foldlM AuthorityScan.step? {}
  if s.isLegal then some (front, bs.drop front.length) else none

def lowerByte (b : UInt8) : UInt8 := if 0x41 ≤ b ∧ b ≤ 0x5A then b + 0x20 else b

/-- The scheme at the front, and what follows its two slashes. The two web schemes are told in
lower case. -/
def scheme? (bs : List UInt8) : Option (Option String × List UInt8) :=
  if (bs.take 7).map lowerByte = Utf8.bytes "http://" then some (some "http", bs.drop 7)
  else if (bs.take 8).map lowerByte = Utf8.bytes "https://" then some (some "https", bs.drop 8)
  else
    let name := bs.takeWhile isSchemeByte
    let rest := bs.drop name.length
    if 3 < bs.length ∧ (Utf8.bytes "://").isPrefixOf rest then
      if schemeLimit < name.length then none
      else (Utf8.text? name).map fun s => (some s, rest.drop 3)
    else some (none, bs)

def parse? (text : String) : Option Target :=
  let bs := Utf8.bytes text
  if sizeLimit < bs.length then none
  else if bs = [Ascii.slash] ∨ bs = [0x2A] then some ⟨none, none, text⟩
  else if bs.head? = some Ascii.slash then (pathAndQuery? bs).map fun p => ⟨none, none, p⟩
  else do
    let (scheme, rest) ← scheme? bs
    let (authority, rest) ← authority? rest
    match scheme with
    | none => if rest = [] ∧ bs ≠ [] then some ⟨none, some text, ""⟩ else none
    | some s =>
      if authority = [] then none
      else return ⟨some s, some (← Utf8.text? authority), ← pathAndQuery? rest⟩

/-- The path; it is a slash where a host is followed by nothing or by a query. -/
def path (t : Target) : String :=
  if t.pathAndQuery = "" ∧ t.scheme.isNone then ""
  else
    match t.pathAndQuery.toList.takeWhile (· ≠ '?') with
    | [] => "/"
    | p => String.ofList p

/-- The query behind the question mark, if there is one. -/
def query (t : Target) : Option String :=
  match t.pathAndQuery.toList.dropWhile (· ≠ '?') with
  | [] => none
  | _ :: q => some (String.ofList q)

def render (t : Target) : String :=
  let scheme := match t.scheme with
    | some s => s ++ "://"
    | none => ""
  let query := match t.query with
    | some q => "?" ++ q
    | none => ""
  scheme ++ t.authority.getD "" ++ t.path ++ query

/-- Path and query as a request to a host states them; a target that is a host alone has none. -/
def resource? (t : Target) : Option String :=
  if t.scheme.isSome ∨ t.authority.isNone then
    some (if t.pathAndQuery = "" then "/" else t.pathAndQuery)
  else none

end Target

end ServiceMesh.Http
