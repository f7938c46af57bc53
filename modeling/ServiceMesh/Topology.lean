import ServiceMesh.Node
import ServiceMesh.Store.Event

/-!
The topology: the services that a member knows about and their nodes. It is built from a scan of
the stored records or kept up to date by the events of the store; both read a record by the same
rules. The name of a service is taken from the key, its nodes from the values.
-/

namespace ServiceMesh

structure Topology where
  services : KeyMap Service
  deriving DecidableEq, Inhabited

namespace Topology

def empty : Topology := ⟨∅⟩

def get? (t : Topology) (name : String) : Option Service := t.services.get? name

/-- The names of the services, in increasing order. -/
def names (t : Topology) : List String := t.services.keys

def size (t : Topology) : Nat := t.services.size

def isEmpty (t : Topology) : Bool := t.services.isEmpty

/-- The nodes of a service; one that is not there has none. -/
def nodes (t : Topology) (name : String) : List Node :=
  match t.get? name with
  | some s => s.nodes
  | none => []

/-- Puts a node into a service, at the place of the node with its identifier if there is one. -/
def upsert (t : Topology) (service : String) (n : Node) : Topology :=
  ⟨t.services.insert service ⟨service, Service.upsertNode n (t.nodes service)⟩⟩

/-- Takes a node out of a service; a service without nodes goes with its last one. -/
def remove (t : Topology) (service id : String) : Topology :=
  match t.get? service with
  | none => t
  | some s =>
    let rest := s.nodes.filter fun n => n.id ≠ id
    if rest.isEmpty then ⟨t.services.erase service⟩
    else ⟨t.services.insert service ⟨s.name, rest⟩⟩

def hasNode (t : Topology) (service id : String) : Bool :=
  (t.nodes service).any fun n => n.id = id

/-- A record was written. Answers whether it is one of a node, and the topology after it. -/
def applyPut (t : Topology) (key : String) (value : List UInt8) : Topology × Bool :=
  match Node.parseKey key, Node.decode? value with
  | some (service, _), some n => (t.upsert service n, true)
  | _, _ => (t, false)

/-- A record was deleted. Answers whether a node went with it, and the topology after it. -/
def applyDelete (t : Topology) (key : String) : Topology × Bool :=
  match Node.parseKey key with
  | some (service, id) => (t.remove service id, t.hasNode service id)
  | none => (t, false)

def apply (t : Topology) : Event → Topology × Bool
  | .put key value => t.applyPut key value
  | .delete key => t.applyDelete key

/-- The topology of a list of records. Records that are not of nodes are passed over. -/
def ofScan (records : List (String × List UInt8)) : Topology :=
  records.foldl (fun t r => (t.applyPut r.1 r.2).1) empty

/-- Nodes in the order of their identifiers. -/
def byId (nodes : List Node) : List Node := nodes.mergeSort fun a b => a.id ≤ b.id

/-- Whether two topologies have the same services with the same nodes, in whatever order. -/
def sameMembers (t u : Topology) : Bool :=
  t.names = u.names &&
    t.services.entries.all fun e =>
      match u.get? e.1 with
      | some s => byId e.2.nodes = byId s.nodes
      | none => false

end Topology

end ServiceMesh
