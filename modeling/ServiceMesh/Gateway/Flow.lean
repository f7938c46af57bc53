import ServiceMesh.Balance.Pool
import ServiceMesh.Gateway.CallContext
import ServiceMesh.Http.Client

/-!
The handling of requests. A handler answers a request or panics; on the way it may select backends,
hand requests to the network and call adapters, all of which is on record.
-/

namespace ServiceMesh.Gateway

/-- Why the handling of a request was broken off: with a text, or with something else. -/
inductive Panic where
  | text (s : String)
  | other
  deriving DecidableEq, Repr, Inhabited

structure Call where
  key : String
  context : CallContext
  method : String
  path : String
  input : ByteArray

/-- What has been done for the requests so far. -/
structure Traffic where
  pool : Pool
  /-- The requests that were handed to the network, the latest last. -/
  sent : List Http.Outgoing := []
  calls : List Call := []
  /-- How many identifiers were given to requests that came without one. -/
  named : Nat := 0
  /-- What handlers noted down. -/
  notes : List String := []

abbrev Flow := ExceptT Panic (StateM Traffic)

abbrev Handler := Http.Request → Flow Http.Response

namespace Flow

def note (s : String) : Flow Unit := modify fun t => { t with notes := t.notes ++ [s] }

def select (service : String) : Flow (Except Failure Backend) := do
  let t ← get
  let (pool, r) := t.pool.select service
  set { t with pool }
  return r

def send (net : Http.Network) (o : Http.Outgoing) : Flow Http.Answer := do
  modify fun t => { t with sent := t.sent ++ [o] }
  return net o

end Flow

end ServiceMesh.Gateway
