import ServiceMesh.Gateway.Chain
import ServiceMesh.Gateway.Envelope
import ServiceMesh.Gateway.Routing

/-! The interceptors that every gateway comes with. -/

namespace ServiceMesh.Gateway

namespace Panic

/-- What a caller is told about a panic. -/
def message : Panic → String
  | text s => s
  | other => "unknown error"

end Panic

namespace Interceptor

/-- Turns a panic further in into an answer. -/
def recover : Interceptor where
  name := "recover"
  wrap next req := tryCatch (next req) fun p =>
    return (Envelope.failedWith .common p.message).response

def requestIdHeader : String := "x-request-id"

/-- Gives an identifier to every request that has none that can be read. -/
def requestId (fresh : Nat → String) (hs : Http.Headers) : Flow String := do
  match hs.text? requestIdHeader with
  | some id => return id
  | none =>
    let n := (← get).named
    modify fun t => { t with named := n + 1 }
    return fresh n

/-- Names the request, for the log and for the backend. -/
def log (fresh : Nat → String) : Interceptor where
  name := "log"
  wrap next req := do
    let id ← requestId fresh req.headers
    let value := Utf8.bytes id
    if Http.Header.isLegalValue value then
      next { req with headers := req.headers.set requestIdHeader value }
    else next req

def noRoute : Envelope := .failedWith .gateway "non router exist"

/-- Finds the route of a request and puts it into its headers. -/
def routeMatch (routes : List Route) : Interceptor where
  name := "route-match"
  wrap next req :=
    match (Routing.matchRoute routes req.target.path).bind fun r => Routing.mark? r req.headers with
    | some headers => next { req with headers }
    | none => return noRoute.response

def noToken : Envelope := .failedWith .noToken "unauthenticate"

/-- Whether a request may pass: its path is open to everyone, or it brings a token. -/
def mayPass (whiteList : List String) (req : Http.Request) : Bool :=
  req.target.path ∈ whiteList ||
    match req.headers.first? "authorization" with
    | some token => !token.isEmpty
    | none => false

/-- Refuses requests without a token. -/
def auth (whiteList : List String) : Interceptor where
  name := "auth"
  wrap next req := if mayPass whiteList req then next req else return noToken.response

end Interceptor

/-- The usual interceptors with their priorities. -/
def defaultChain (fresh : Nat → String) (routes : List Route) (whiteList : List String) : Chain :=
  ((((({} : Chain).add (-10) .recover).add (-9) (.log fresh)).add 1 (.routeMatch routes)).add 3
    (.auth whiteList))

end ServiceMesh.Gateway
