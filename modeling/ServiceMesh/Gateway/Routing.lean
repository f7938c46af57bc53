import ServiceMesh.Config
import ServiceMesh.Http.Header

/-!
Where a request goes. Three headers of the gateway's own carry the matched route from the matcher
to the dispatcher: the service, the beginning of the path, and the kind of the backend.
-/

namespace ServiceMesh

/-- The kinds of backends. -/
inductive Scheme where
  /-- Requests are forwarded as they are. -/
  | reverseProxy
  /-- Requests become calls of an adapter. -/
  | typedRpc
  deriving DecidableEq, Repr

def Scheme.parse? (s : String) : Option Scheme :=
  if s = "reverse-proxy" ∨ s = "controller" then some reverseProxy
  else if s = "typed-rpc" ∨ s = "rpc" then some typedRpc
  else none

namespace Routing

def serviceHeader : String := "micro-service-name"

def pathHeader : String := "micro-service-path"

def schemaHeader : String := "micro-service-schema"

/-- Headers that concern a single connection. -/
def connectionHeaders : List String := [
  "connection", "keep-alive", "proxy-authenticate", "proxy-authorization", "te", "trailer",
  "transfer-encoding", "upgrade"]

/-- What follows a beginning of a text; a text with another beginning stays as it is. -/
def dropStart (start s : List Char) : List Char :=
  if start.isPrefixOf s then s.drop start.length else s

/-- The path that is asked of a backend: without the beginning that matched, always with a slash in
front, and with the query. -/
def rewritePath (path : String) (query : Option String) (start : String) : String :=
  let rest := dropStart start.toList path.toList
  let rest := if rest.head? = some '/' then rest else '/' :: rest
  String.ofList rest ++ match query with
    | some q => "?" ++ q
    | none => ""

/-- The first two segments of a path with slashes around them; behind them there has to be at least
one more slash. -/
def routingKey (path : String) : Option String :=
  match path.toList with
  | '/' :: rest =>
    let first := rest.takeWhile (· ≠ '/')
    match rest.drop first.length with
    | '/' :: rest =>
      let second := rest.takeWhile (· ≠ '/')
      match rest.drop second.length with
      | '/' :: _ =>
        if first = [] ∨ second = [] then none
        else some (String.ofList ('/' :: first ++ '/' :: second ++ ['/']))
      | _ => none
    | _ => none
  | _ => none

/-- Whether a header is not forwarded: it concerns the gateway, the host or the connection. -/
def isHeldBack (name : String) : Bool :=
  name ∈ [serviceHeader, pathHeader, schemaHeader, "host", "content-length"] ||
    name ∈ connectionHeaders

/-- The headers for a backend; whom the request is forwarded for is added if it can be written. -/
def forwardHeaders (hs : Http.Headers) (forwardedFor : String) : Http.Headers :=
  let kept := hs.filter fun h => !isHeldBack h.name
  let value := Utf8.bytes forwardedFor
  if Http.Header.isLegalValue value then Http.Headers.add kept "x-forwarded-for" value else kept

/-- The headers of a backend's response that are given on. -/
def relayHeaders (hs : Http.Headers) : Http.Headers :=
  hs.filter fun h => h.name ∉ connectionHeaders && h.name ≠ "content-length"

/-- The first route whose path is a beginning of the given one. -/
def matchRoute (routes : List Route) (path : String) : Option Route :=
  routes.find? fun r => r.path.toList.isPrefixOf path.toList

/-- The request with the headers of a route in place of those that it has; nothing if the route
cannot be written in headers. -/
def mark? (r : Route) (hs : Http.Headers) : Option Http.Headers :=
  let id := Utf8.bytes r.id
  let path := Utf8.bytes r.path
  let schema := Utf8.bytes r.schema
  if [id, path, schema].all Http.Header.isLegalValue then
    some (((hs.set serviceHeader id).set pathHeader path).set schemaHeader schema)
  else none

end Routing

end ServiceMesh
