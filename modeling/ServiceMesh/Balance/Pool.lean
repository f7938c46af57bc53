import ServiceMesh.Balance.Difference
import ServiceMesh.Balance.RoundRobin
import ServiceMesh.Registry.Directory

/-!
The pool of backends of the gateway: one client for each address of each service that the registry
knows. The pool follows the registry by differences, so a client lives as long as its node, and
selects among the clients of a service by turns; all services share one counter.
-/

namespace ServiceMesh

/-- A client of one node, for one of the services that the node belongs to. -/
structure Backend where
  addr : String
  service : String
  deriving DecidableEq, Repr, Inhabited

/-- The address of a resource; the path starts with a slash. -/
def Backend.url (b : Backend) (pathAndQuery : String) : String := "http://" ++ b.addr ++ pathAndQuery

structure Pool where
  clients : List Backend := []
  /-- Whether the pool has followed the registry at least once. -/
  isSynced : Bool := false
  roundRobin : RoundRobin
  deriving DecidableEq, Repr, Inhabited

namespace Pool

/-- The clients that the registry asks for. A service that cannot be looked up is passed over. -/
def targets (d : Directory) : List Backend :=
  match d.names with
  | .error _ => []
  | .ok names => names.flatMap fun name =>
    match d.service name with
    | .ok s => s.nodes.map fun n => ⟨n.addr, name⟩
    | .error _ => []

/-- Drops the clients of nodes that are gone and adds those of nodes that came. -/
def sync (p : Pool) (d : Directory) : Pool :=
  let change := difference p.clients (targets d)
  { p with
    clients := p.clients.filter (fun c => c ∉ change.removed) ++ change.added
    isSynced := true }

def addresses (p : Pool) : List String := p.clients.map (·.addr)

def select (p : Pool) (service : String) : Pool × Except Failure Backend :=
  if ¬p.isSynced then (p, .error (.ofGateway "service registry not ready"))
  else
    match p.roundRobin.pick (p.clients.filter fun c => c.service = service) with
    | (r, some c) => ({ p with roundRobin := r }, .ok c)
    | (r, none) => ({ p with roundRobin := r }, .error (.ofGateway "no available nodes"))

end Pool

end ServiceMesh
