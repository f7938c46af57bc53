import ServiceMesh.Failure
import ServiceMesh.Http.Message
import ServiceMesh.Json.Reader
import ServiceMesh.Url.Basic

/-!
The client side of HTTP. A client checks the address of a request, hands the request to the network
and takes what comes back; the network is a function, so what a client does can be told for every
network. Every failure is a failed remote call.
-/

namespace ServiceMesh.Http

/-- A request as it is handed to the network. -/
structure Outgoing where
  method : String
  url : Url
  headers : Headers
  body : ByteArray

/-- What comes back for a request. -/
inductive Answer where
  /-- The connection was refused or closed, or there was no answer in time. -/
  | silence
  | whole (r : Response)
  /-- The body breaks off. -/
  | brokenOff (status : Nat) (headers : Headers)

/-- How the hosts of a network answer. -/
abbrev Network := Outgoing → Answer

/-- A network in which nobody answers. -/
def Network.unreachable : Network := fun _ => .silence

namespace Client

def badAddress : Failure := .remoteCall "builder error"

def badHost (u : Url) : Failure := .remoteCall ("builder error for url (" ++ u.render ++ ")")

def unanswered (u : Url) : Failure :=
  .remoteCall ("error sending request for url (" ++ u.render ++ ")")

def undecodable : Failure := .remoteCall "error decoding response body"

/-- A response whose status says that it failed. -/
def badStatus (class_ : String) (status : Nat) (u : Url) : Failure :=
  .remoteCall ("HTTP status " ++ class_ ++ " error (" ++ Status.describe status ++ ") for url ("
    ++ u.render ++ ")")

/-- The address of a request: absolute, with a host, of one of the two schemes of HTTP, and fit to
stand in a request. Who calls is not part of it. -/
def address (text : String) : Except Failure Url :=
  match Url.parse? text with
  | none => .error badAddress
  | some u =>
    if (u.host.getD "") = "" then .error (badHost u)
    else
      let u := { u with username := "", password := "" }
      if (u.scheme = "http" ∨ u.scheme = "https") ∧ (Target.parse? u.render).isSome then .ok u
      else .error (badHost u)

/-- The request that a client hands to the network; it accepts every kind of answer unless the
headers say otherwise. -/
def prepare (method : String) (text : String) (headers : Headers) (body : ByteArray) :
    Except Failure Outgoing :=
  match address text with
  | .error f => .error f
  | .ok url =>
    .ok { method, url, headers := headers.addMissing "accept" (Utf8.bytes "*/*"), body }

/-- A response without its body, and the body if all of it came. -/
structure Reply where
  url : Url
  status : Nat
  headers : Headers
  body : Option ByteArray

/-- Takes what came back for a request. -/
def receive (o : Outgoing) : Answer → Except Failure Reply
  | .silence => .error (unanswered o.url)
  | .whole r => .ok { url := o.url, status := r.status, headers := r.headers, body := some r.body }
  | .brokenOff status headers => .ok { url := o.url, status, headers, body := none }

namespace Reply

/-- A reply whose status does not say that the request failed. -/
def successful (r : Reply) : Except Failure Reply :=
  if Status.isClientError r.status then .error (badStatus "client" r.status r.url)
  else if Status.isServerError r.status then .error (badStatus "server" r.status r.url)
  else .ok r

def bytes (r : Reply) : Except Failure ByteArray :=
  match r.body with
  | some b => .ok b
  | none => .error undecodable

/-- The body, read as JSON of some kind. -/
def decode {α : Type} (read : List UInt8 → Option α) (r : Reply) : Except Failure α :=
  match r.body.bind fun b => read b.data.toList with
  | some v => .ok v
  | none => .error undecodable

end Reply

end Client

end ServiceMesh.Http
