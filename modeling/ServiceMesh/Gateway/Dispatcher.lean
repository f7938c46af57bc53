import ServiceMesh.Gateway.Adapter
import ServiceMesh.Gateway.Envelope
import ServiceMesh.Gateway.Routing

/-!
The terminal of a gateway. It reads the route of a request from its headers and forwards the request
to a backend or calls an adapter. Whatever goes wrong is answered with an envelope.
-/

namespace ServiceMesh.Gateway

structure Dispatcher where
  net : Http.Network
  adapters : List Adapter := []
  /-- How long a call may take, in milliseconds. -/
  timeout : Nat
  /-- The address in whose name requests are forwarded. -/
  forwardedFor : String
  /-- The moment of the answers, as their headers tell it. -/
  date : String

namespace Dispatcher

/-- The longest body that is read, in bytes. -/
def bodyLimit : Nat := 16 * 1024 * 1024

def refuse (reason : String) : Http.Response := (Envelope.failedWith .gateway reason).response

def bodyOf (req : Http.Request) : Except Http.Response ByteArray :=
  if bodyLimit < req.body.size then .error (refuse "length limit exceeded") else .ok req.body

/-- What a backend answered, as it is given on. -/
def relay (r : Http.Client.Reply) : Http.Response :=
  match r.bytes with
  | .ok body => { status := r.status, headers := Routing.relayHeaders r.headers, body }
  | .error f => refuse f.reason

def forward (d : Dispatcher) (req : Http.Request) (b : Backend) (start : String)
    (body : ByteArray) : Except Failure Http.Outgoing :=
  Http.Client.prepare req.method
    (b.url (Routing.rewritePath req.target.path req.target.query start))
    (Routing.forwardHeaders req.headers d.forwardedFor) body

/-- Forwards a request to the next backend of a service. -/
def reverseProxy (d : Dispatcher) (req : Http.Request) (service start : String) :
    Flow Http.Response := do
  match ← Flow.select service with
  | .error _ => return refuse "no service instance"
  | .ok backend =>
    match bodyOf req with
    | .error response => return response
    | .ok body =>
      match d.forward req backend start body with
      | .error f => return refuse f.reason
      | .ok outgoing =>
        match Http.Client.receive outgoing (← Flow.send d.net outgoing) with
        | .ok reply => return relay reply
        | .error f => return refuse f.reason

/-- The whole address of a request; the host comes from its headers unless the target has one. -/
def fullAddress (req : Http.Request) : String :=
  if req.target.scheme.isSome then req.target.render
  else "http://" ++ req.headers.text "host" ++ (req.target.resource?).getD "/"

/-- What an adapter is given: the address where a request has no body by its method, and the body
where it has one. Other methods have no input. -/
def inputOf (req : Http.Request) : Except Http.Response ByteArray :=
  if req.method = "GET" ∨ req.method = "DELETE" then .ok (fullAddress req).toUTF8
  else if req.method = "POST" ∨ req.method = "PUT" then bodyOf req
  else .error (refuse "method not allowed")

/-- The answer to a call that ended after some milliseconds. -/
def conclude (d : Dispatcher) (after : Nat) (r : Except Failure (List UInt8)) : Http.Response :=
  let r := if after ≤ d.timeout then r else .error (.ofGateway "request timeout")
  match r with
  | .ok out =>
    { status := 200
      headers := [Envelope.contentType, ⟨"date", Utf8.bytes d.date⟩]
      body := ⟨out.toArray⟩ }
  | .error f =>
    (Envelope.failed (if f.isRpc then f.code else ErrorCode.gateway.value) f.reason).response

def typedRpc (d : Dispatcher) (req : Http.Request) : Flow Http.Response := do
  let path := req.target.path
  match Routing.routingKey path with
  | none => return refuse "url parse error"
  | some key =>
    match findAdapter d.adapters key with
    | none => return refuse "no endpoint instance"
    | some adapter =>
      match inputOf req with
      | .error response => return response
      | .ok input =>
        let context := (CallContext.new d.timeout).withAuthorization
          (req.headers.text CallContext.tokenName)
        modify fun t =>
          { t with calls := t.calls ++ [⟨key, context, req.method, path, input⟩] }
        match adapter.call context req.method path input with
        | .panicked p => throw p
        | .finished after r => return d.conclude after r

def dispatch (d : Dispatcher) : Handler := fun req =>
  match Scheme.parse? (req.headers.text Routing.schemaHeader) with
  | some .reverseProxy =>
    d.reverseProxy req (req.headers.text Routing.serviceHeader) (req.headers.text Routing.pathHeader)
  | some .typedRpc => d.typedRpc req
  | none => return refuse "no support schema"

end Dispatcher

end ServiceMesh.Gateway
