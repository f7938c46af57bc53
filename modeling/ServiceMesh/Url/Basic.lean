import ServiceMesh.Url.Form
import ServiceMesh.Url.Host

/-!
Addresses of resources as browsers and their like read them. Reading never refuses a strange path
or query; it escapes what may not stand there, and takes the steps `.` and `..` in a path. What it
refuses is a bad host or port. A relative address is read on top of another address.
-/

namespace ServiceMesh

structure Url where
  scheme : String
  username : String := ""
  password : String := ""
  host : Option String := none
  /-- The port, unless it is the usual one of the scheme. -/
  port : Option Nat := none
  path : String := ""
  query : Option String := none
  fragment : Option String := none
  deriving DecidableEq, Repr, Inhabited

namespace Url

/-- The schemes of the web, whose addresses always have a host, and their usual ports. -/
def webSchemes : List (String × Nat) :=
  [("http", 80), ("https", 443), ("ws", 80), ("wss", 443), ("ftp", 21)]

def isWeb (scheme : String) : Bool := webSchemes.any fun s => s.1 = scheme

/-- In these schemes a backslash counts as a slash. -/
def hasBackslash (scheme : String) : Bool := isWeb scheme || scheme = "file"

def isSlash (scheme : String) (c : Char) : Bool := c = '/' || c = '\\' && hasBackslash scheme

/-! ### Paths -/

/-- The written forms of a step to the parent. -/
def isParentStep (segment : List Char) : Bool :=
  (segment.map Char.toLower) ∈ ["..".toList, ".%2e".toList, "%2e.".toList, "%2e%2e".toList]

def isHereStep (segment : List Char) : Bool :=
  (segment.map Char.toLower) ∈ [".".toList, "%2e".toList]

/-- The segments between the slashes of a path. -/
def segments (scheme : String) : List Char → List (List Char)
  | [] => [[]]
  | c :: cs =>
    if isSlash scheme c then [] :: segments scheme cs
    else
      match segments scheme cs with
      | [] => [[c]]
      | s :: ss => (c :: s) :: ss

/-- Takes the steps of a path on top of the segments that are there, the last one first. A step at
the end leaves an empty segment. -/
def walk (done : List (List Char)) : List (List Char) → List (List Char)
  | [] => done
  | s :: rest =>
    if isParentStep s then
      let done := done.drop 1
      walk (if rest.isEmpty then [] :: done else done) rest
    else if isHereStep s then walk (if rest.isEmpty then [] :: done else done) rest
    else walk (s :: done) rest

/-- A path that starts behind its first slash, on top of the segments of another one. -/
def pathOf (scheme : String) (base : List (List Char)) (cs : List Char) : String :=
  let done := (walk base.reverse (segments scheme cs)).reverse
  let path := Percent.encode Percent.inPath (String.ofList (done.flatMap fun s => '/' :: s))
  if scheme = "file" then
    "/" ++ String.ofList (path.toList.dropWhile (· = '/'))
  else path

/-- The path behind an authority. Where there is none, a web address has a slash. -/
def authorityPath (scheme : String) (cs : List Char) : String :=
  match cs with
  | [] => if hasBackslash scheme then "/" else ""
  | c :: rest => pathOf scheme [] (if isSlash scheme c then rest else cs)

/-! ### Authorities -/

/-- Cuts at the last at sign. -/
def splitUser (cs : List Char) : Option (List Char) × List Char :=
  let host := (cs.reverse.takeWhile (· ≠ '@')).reverse
  if host.length = cs.length then (none, cs)
  else (some (cs.take (cs.length - host.length - 1)), host)

/-- Cuts in front of the colon that starts a port; a colon between brackets does not. -/
def splitPort (inside : Bool) : List Char → List Char × Option (List Char)
  | [] => ([], none)
  | c :: rest =>
    if c = ':' ∧ ¬inside then ([], some rest)
    else
      let r := splitPort (if c = '[' then true else if c = ']' then false else inside) rest
      (c :: r.1, r.2)

/-- A port in decimal digits; none at all means the usual one. -/
def port? (scheme : String) (cs : List Char) : Option (Option Nat) :=
  if ¬cs.all Char.isDigit then none
  else if cs = [] then some none
  else
    let n := cs.foldl (fun n c => n * 10 + (c.toNat - 48)) 0
    if 65535 < n then none
    else some (if (webSchemes.find? fun s => s.1 = scheme).any (·.2 = n) then none else some n)

/-- An address from its authority on. -/
def ofAuthority? (scheme : String) (cs : List Char) : Option Url := do
  let authority := cs.takeWhile fun c => !isSlash scheme c
  let path := cs.drop authority.length
  let (user, rest) := splitUser authority
  if user.isSome ∧ rest = [] then none
  let (host, port) := splitPort false rest
  if host = [] ∧ (isWeb scheme ∨ port.isSome) then none
  let host ← if isWeb scheme then Host.parse? host else Host.parseOpaque? host
  let port ← match port with
    | some p => port? scheme p
    | none => some none
  let name := (user.getD []).takeWhile (· ≠ ':')
  let password := ((user.getD []).drop name.length).drop 1
  if host = "" ∧ user.getD [] ≠ [] then none
  return {
    scheme
    username := Percent.encode Percent.inUser (String.ofList name)
    password := Percent.encode Percent.inUser (String.ofList password)
    host := some host
    port
    path := authorityPath scheme path }

/-! ### Whole addresses -/

/-- The scheme in front of a colon, in small letters, and what follows. -/
def splitScheme (cs : List Char) : Option (String × List Char) :=
  let name := cs.takeWhile (· ≠ ':')
  let isSchemeChar (c : Char) : Bool := c.isAlphanum || c = '+' || c = '-' || c = '.'
  match name, cs.drop name.length with
  | c :: _, ':' :: rest =>
    if c.isAlpha ∧ name.all isSchemeChar then some (String.ofList (name.map Char.toLower), rest)
    else none
  | _, _ => none

/-- A letter and a colon, which stand for a disk and not for a host. -/
def isDisk (cs : List Char) : Bool :=
  match cs with
  | [c, d] => c.isAlpha && (d = ':' || d = '|')
  | _ => false

def ofFile? (cs : List Char) : Option Url :=
  let slash (c : Char) : Bool := isSlash "file" c
  match cs with
  | a :: b :: rest =>
    if slash a ∧ slash b then
      let host := rest.takeWhile fun c => !slash c
      if host = [] ∨ isDisk host then
        some { scheme := "file", host := some "", path := pathOf "file" [] rest }
      else do
        let name ← Host.parse? host
        return {
          scheme := "file"
          host := some (if name = "localhost" then "" else name)
          path := authorityPath "file" (rest.drop host.length) }
    else some { scheme := "file", host := some "", path := authorityPath "file" cs }
  | _ => some { scheme := "file", host := some "", path := authorityPath "file" cs }

/-- An address behind its scheme. -/
def ofScheme? (scheme : String) (cs : List Char) : Option Url :=
  if isWeb scheme then ofAuthority? scheme (cs.dropWhile (isSlash scheme))
  else if scheme = "file" then ofFile? cs
  else
    match cs with
    | '/' :: '/' :: rest => ofAuthority? scheme rest
    | '/' :: rest => some { scheme, path := pathOf scheme [] rest }
    | _ => some { scheme, path := Percent.encode Percent.isControl (String.ofList cs) }

/-- The address that a relative one leads to from a web address. -/
def ofRelative? (base : Url) (cs : List Char) : Option Url :=
  let scheme := base.scheme
  match cs with
  | [] => some { base with query := none, fragment := none }
  | c :: rest =>
    if isSlash scheme c then
      match rest with
      | d :: rest' =>
        if isSlash scheme d then
          ofAuthority? scheme
            (if c = '/' ∧ d = '/' then rest' else rest'.dropWhile (isSlash scheme))
        else some { base with path := pathOf scheme [] rest, query := none, fragment := none }
      | [] => some { base with path := "/", query := none, fragment := none }
    else
      let around := (segments scheme (base.path.toList.drop 1)).dropLast
      some { base with path := pathOf scheme around cs, query := none, fragment := none }

/-- What is left of a text when its control characters and spaces at both ends, and the tabs and
line ends anywhere, are taken out. -/
def clean (text : String) : List Char :=
  let blank (c : Char) : Bool := c.toNat ≤ 0x20
  (((text.toList.dropWhile blank).reverse.dropWhile blank).reverse).filter
    fun c => c ≠ '\t' && c ≠ '\n' && c ≠ '\r'

/-- Cuts at the first occurrence of a character. -/
def cutAt (c : Char) (cs : List Char) : List Char × Option (List Char) :=
  let front := cs.takeWhile (· ≠ c)
  match cs.drop front.length with
  | [] => (front, none)
  | _ :: rest => (front, some rest)

/-- Reads an address; a relative one needs a base. -/
def parse? (text : String) (base : Option Url := none) : Option Url := do
  let (rest, fragment) := cutAt '#' (clean text)
  let (front, query) := cutAt '?' rest
  let u ← match splitScheme front, base with
    | some (scheme, rest), none => ofScheme? scheme rest
    | some (scheme, rest), some b =>
      if isWeb scheme ∧ scheme = b.scheme ∧ (rest.takeWhile (isSlash scheme)).length < 2 then
        ofRelative? b rest
      else ofScheme? scheme rest
    | none, some b => ofRelative? b front
    | none, none => none
  let querySet := if hasBackslash u.scheme then Percent.inWebQuery else Percent.inQuery
  return { u with
    query := query.map fun q => Percent.encode querySet (String.ofList q)
    fragment := fragment.map fun f => Percent.encode Percent.inFragment (String.ofList f) }

def render (u : Url) : String :=
  let user :=
    if u.username = "" ∧ u.password = "" then ""
    else u.username ++ (if u.password = "" then "" else ":" ++ u.password) ++ "@"
  let port := match u.port with
    | some p => ":" ++ toString p
    | none => ""
  let authority := match u.host with
    | some h => "//" ++ user ++ h ++ port
    | none => ""
  let query := match u.query with
    | some q => "?" ++ q
    | none => ""
  let fragment := match u.fragment with
    | some f => "#" ++ f
    | none => ""
  u.scheme ++ ":" ++ authority ++ u.path ++ query ++ fragment

def pairs (u : Url) : List (String × String) :=
  match u.query with
  | some q => Form.pairs (Utf8.bytes q)
  | none => []

end Url

end ServiceMesh
