import ServiceMesh.Gateway.Dispatcher
import ServiceMesh.Proofs.Gateway.Flow

/-!
What the dispatcher does, in one equation for each kind of backend. A request that is forwarded
moves the pool on by one selection and is handed to the client once; a request for an adapter is
either answered without a call or becomes exactly one call.
-/

namespace ServiceMesh

/-- What the client makes of one request: its result, and what it puts on the network for it. -/
def Http.Client.exchange (net : Network) (method text : String) (headers : Headers)
    (body : ByteArray) : Except Failure Reply × List Outgoing :=
  match prepare method text headers body with
  | .error f => (.error f, [])
  | .ok o => (receive o (net o), [o])

namespace Gateway

open Gateway.Flow

/-! ### Parts of the handling -/

namespace Flow

theorem perform_select (service : String) (t : Traffic) :
    (select service).perform t =
      (.ok (t.pool.select service).2, { t with pool := (t.pool.select service).1 }) := rfl

theorem perform_send (net : Http.Network) (o : Http.Outgoing) (t : Traffic) :
    (send net o).perform t = (.ok (net o), { t with sent := t.sent ++ [o] }) := rfl

theorem perform_modify (f : Traffic → Traffic) (t : Traffic) :
    (modify f : Flow PUnit).perform t = (.ok ⟨⟩, f t) := rfl

theorem perform_throw {α : Type} (p : Panic) (t : Traffic) :
    (throw p : Flow α).perform t = (.error p, t) := rfl

end Flow

def Adapter.answer (a : Adapter) (c : Call) : Outcome (List UInt8) :=
  a.call c.context c.method c.path c.input

namespace Dispatcher

variable (d : Dispatcher) (req : Http.Request) (t : Traffic)

def serve (r : Route) : Flow Http.Response :=
  match Scheme.parse? r.schema with
  | some .reverseProxy => d.reverseProxy req r.id r.path
  | some .typedRpc => d.typedRpc req
  | none => return refuse "no support schema"

/-! ### Forwarding -/

def passBack : Except Failure Http.Client.Reply → Http.Response
  | .ok reply => relay reply
  | .error f => refuse f.reason

def exchange (b : Backend) (start : String) (body : ByteArray) :
    Except Failure Http.Client.Reply × List Http.Outgoing :=
  Http.Client.exchange d.net req.method
    (b.url (Routing.rewritePath req.target.path req.target.query start))
    (Routing.forwardHeaders req.headers d.forwardedFor) body

theorem perform_reverseProxy (service start : String) :
    (d.reverseProxy req service start).perform t =
      match t.pool.select service with
      | (pool, .error _) => (.ok (refuse "no service instance"), { t with pool })
      | (pool, .ok b) =>
        match bodyOf req with
        | .error r => (.ok r, { t with pool })
        | .ok body =>
          (.ok (passBack (d.exchange req b start body).1),
            { t with pool, sent := t.sent ++ (d.exchange req b start body).2 }) := by
  rw [reverseProxy, perform_bind, perform_select]
  rcases t.pool.select service with ⟨pool, selected⟩
  cases selected with
  | error f => rfl
  | ok b =>
      dsimp only
      cases bodyOf req with
      | error r => rfl
      | ok body =>
          dsimp only
          rw [exchange, Http.Client.exchange, forward]
          cases Http.Client.prepare req.method
              (b.url (Routing.rewritePath req.target.path req.target.query start))
              (Routing.forwardHeaders req.headers d.forwardedFor) body with
          | error f =>
              dsimp only
              rw [List.append_nil]
              rfl
          | ok o =>
              dsimp only
              rw [perform_bind, perform_send]
              dsimp only
              cases Http.Client.receive o (d.net o) with
              | ok reply => rfl
              | error f => rfl

/-! ### Calls of adapters -/

/-- The call that a request becomes and the adapter for it, or the answer to a request that becomes
no call. -/
def callFor : Except Http.Response (Adapter × Call) :=
  match Routing.routingKey req.target.path with
  | none => .error (refuse "url parse error")
  | some key =>
    match findAdapter d.adapters key with
    | none => .error (refuse "no endpoint instance")
    | some adapter =>
      match inputOf req with
      | .error r => .error r
      | .ok input =>
        .ok (adapter, ⟨key, (CallContext.new d.timeout).withAuthorization
          (req.headers.text CallContext.tokenName), req.method, req.target.path, input⟩)

/-- A request without a body becomes a call with its whole address, if there is an adapter for it. -/
theorem exists_callFor {key : String} {a : Adapter}
    (hmethod : req.method = "GET" ∨ req.method = "DELETE")
    (hkey : Routing.routingKey req.target.path = some key)
    (hfound : findAdapter d.adapters key = some a) :
    ∃ c, d.callFor req = .ok (a, c) ∧ c.input = (fullAddress req).toUTF8 := by
  rw [callFor, hkey]
  dsimp only
  rw [hfound]
  dsimp only
  rw [inputOf, if_pos hmethod]
  exact ⟨_, rfl, rfl⟩

def close : Outcome (List UInt8) → Except Panic Http.Response
  | .panicked p => .error p
  | .finished after r => .ok (d.conclude after r)

theorem perform_typedRpc :
    (d.typedRpc req).perform t =
      match d.callFor req with
      | .error r => (.ok r, t)
      | .ok (a, c) => (d.close (a.answer c), { t with calls := t.calls ++ [c] }) := by
  rw [typedRpc, callFor]
  dsimp only
  cases Routing.routingKey req.target.path with
  | none => rfl
  | some key =>
      dsimp only
      cases findAdapter d.adapters key with
      | none => rfl
      | some adapter =>
          dsimp only
          cases inputOf req with
          | error r => rfl
          | ok input =>
              dsimp only
              rw [perform_bind, perform_modify, Adapter.answer]
              dsimp only
              cases adapter.call _ req.method req.target.path input with
              | panicked p => rfl
              | finished after r => rfl

/-- A request without a body becomes one call of the adapter that is found for it. -/
theorem exists_call {key : String} {a : Adapter}
    (hschema : Scheme.parse? (req.headers.text Routing.schemaHeader) = some .typedRpc)
    (hmethod : req.method = "GET" ∨ req.method = "DELETE")
    (hkey : Routing.routingKey req.target.path = some key)
    (hfound : findAdapter d.adapters key = some a) :
    ∃ c, c.input = (fullAddress req).toUTF8 ∧
      (d.dispatch req).perform t = (d.close (a.answer c), { t with calls := t.calls ++ [c] }) := by
  obtain ⟨c, hcall, hinput⟩ := d.exists_callFor req hmethod hkey hfound
  refine ⟨c, hinput, ?_⟩
  rw [dispatch, hschema]
  dsimp only
  rw [perform_typedRpc, hcall]

end Dispatcher

end Gateway

end ServiceMesh
