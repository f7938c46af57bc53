import ServiceMesh.Balance.Selector
import ServiceMesh.Http.Client
import ServiceMesh.Json.Writer

/-!
Clients of services. A balanced address names a service; it is turned into the address of the next
node of that service before a request is sent.
-/

namespace ServiceMesh

/-- What a client did: the slot after it, the request that was handed to the network if it came so
far, and how it ended. -/
structure Exchange (α : Type) where
  slot : SelectorSlot
  sent : Option Http.Outgoing
  result : Except Failure α

def Exchange.bind {α β : Type} (e : Exchange α) (f : α → Except Failure β) : Exchange β :=
  { slot := e.slot, sent := e.sent, result := e.result.bind f }

namespace SelectorSlot

def send (s : SelectorSlot) (d : Directory) (net : Http.Network) (method url : String)
    (headers : Http.Headers) (body : ByteArray) : Exchange Http.Client.Reply :=
  match s.resolve d url with
  | (slot, .error f) => { slot, sent := none, result := .error f }
  | (slot, .ok target) =>
    match Http.Client.prepare method target headers body with
    | .error f => { slot, sent := none, result := .error f }
    | .ok o => { slot, sent := some o, result := Http.Client.receive o (net o) }

end SelectorSlot

/-- A client of one service, with headers for all of its requests. -/
structure ApiClient where
  service : String
  headers : Http.Headers := []

namespace ApiClient

/-- The address that paths are put behind. -/
def baseUrl (c : ApiClient) : String := SelectorSlot.scheme ++ c.service

def withHeader (c : ApiClient) (h : Http.Header) : ApiClient :=
  { c with headers := c.headers.set h.name h.value }

def getJson {α : Type} (c : ApiClient) (read : List UInt8 → Option α) (s : SelectorSlot)
    (d : Directory) (net : Http.Network) (path : String) : Exchange α :=
  (s.send d net "GET" (c.baseUrl ++ path) c.headers .empty).bind fun r => do
    (← r.successful).decode read

/-- Sends JSON and reads the answer as JSON of some kind. -/
def postJson {α : Type} (c : ApiClient) (read : List UInt8 → Option α) (s : SelectorSlot)
    (d : Directory) (net : Http.Network) (path : String) (body : Json) : Exchange α :=
  let headers := c.headers.set "content-type" (Utf8.bytes "application/json")
  (s.send d net "POST" (c.baseUrl ++ path) headers ⟨body.write.toArray⟩).bind fun r => do
    (← r.successful).decode read

end ApiClient

end ServiceMesh
