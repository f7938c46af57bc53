import ServiceMesh.Lease.Settings
import ServiceMesh.Store.Basic
import ServiceMesh.Topology

/-!
A member of the registry: a node that keeps itself registered under a lease, and the snapshot of
the topology that it answers look-ups from. Without a snapshot every look-up is refused.
-/

namespace ServiceMesh

structure Member where
  node : Node
  settings : LeaseSettings
  lease : Option LeaseId := none
  /-- Failed renewals in a row. -/
  failures : UInt8 := 0
  /-- When the snapshot was read last; nothing if it has to be read again in any case. -/
  lastSync : Option Nat := none
  snapshot : Option Topology := none
  /-- Set for good when the member is withdrawn. -/
  isCancelled : Bool := false
  /-- Whether its loops run. -/
  isStarted : Bool := false
  deriving DecidableEq, Inhabited

namespace Member

/-- Whether the next round of upkeep reads the whole topology. -/
def needsResync (m : Member) (now : Nat) : Bool :=
  m.snapshot.isNone ||
    match m.lastSync with
    | some at_ => m.settings.resyncInterval ≤ now - at_
    | none => true

def getService (m : Member) (name : String) : Except Failure Service :=
  match m.snapshot with
  | none => .error .notReady
  | some t =>
    match t.get? name with
    | some s => .ok s
    | none => .error (.noSuchService name)

def listServices (m : Member) : Except Failure (List String) :=
  match m.snapshot with
  | none => .error .notReady
  | some t => .ok t.names

end Member

end ServiceMesh
