import ServiceMesh.Config

/-! The times by which a member keeps itself registered. All of them are in milliseconds, but for
the life of a lease, which the store counts in seconds. -/

namespace ServiceMesh

structure LeaseSettings where
  /-- Between two rounds of upkeep. -/
  tick : Nat := 1000
  /-- How long a lease lives without renewal, in seconds. -/
  leaseTtl : Int64 := 10
  /-- The pause after a failed registration, and after a watch that broke. -/
  retryBackoff : Nat := 5000
  /-- The age at which the snapshot is read anew. -/
  resyncInterval : Nat := 60000
  /-- How many renewals in a row may fail before the lease is given up. -/
  maxKeepAliveRetry : UInt8 := 3
  /-- How long a call to the store may take. -/
  callTimeout : Nat := 3000
  deriving DecidableEq, Repr, Inhabited

def LeaseSettings.ofConfig (c : RegistryConfig) : LeaseSettings :=
  { callTimeout := c.callTimeout * 1000 }

end ServiceMesh
