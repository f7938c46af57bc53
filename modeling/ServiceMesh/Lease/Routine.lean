import ServiceMesh.Lease.Member

/-!
The work of a member: a round of upkeep, the application of events and the withdrawal. Each is a
routine that runs until it needs an answer, of the store or of the notification bus, and goes on
when the answer is there; between two such points nothing else can touch the member. So every
interleaving of routines is a sequence of the steps defined here.
-/

namespace ServiceMesh

/-- Where a routine waits for the store. -/
inductive CallPoint where
  /-- For a lease to register under. -/
  | grant
  /-- For its record to be written under the lease. -/
  | publish (lease : LeaseId)
  /-- For a record to be deleted that was written while the member was withdrawn. -/
  | withdraw
  /-- For all records. -/
  | scan
  /-- For its lease to be renewed. -/
  | renew (lease : LeaseId)
  /-- For its record to be deleted for good. -/
  | retire
  deriving DecidableEq, Repr

/-- What the store answers to a call. -/
def CallPoint.Reply : CallPoint → Type
  | grant => LeaseId
  | scan => List (String × List UInt8)
  | _ => Unit

/-- Where a routine goes on when its notification has been delivered. -/
inductive NoticePoint where
  /-- A round of upkeep, after the snapshot was read. -/
  | synced
  /-- With the events that are left to apply. -/
  | applied (rest : List Event)
  /-- Nowhere: that was all. -/
  | finished
  deriving DecidableEq

/-- What a routine needs next, or how it ended. -/
inductive Next where
  | call (p : CallPoint)
  | notify (p : NoticePoint)
  | done (result : Except Failure Unit)

namespace CallPoint

/-- What the store does when the call reaches it. -/
def perform (m : Member) : (p : CallPoint) → Store → Store × Except Failure p.Reply
  | grant, s =>
    match s.grant with
    | .ok (s, id) => (s, .ok id)
    | .error f => (s, .error f)
  | publish lease, s =>
    match s.put m.node.path m.node.encode (some lease) with
    | .ok s => (s, .ok ())
    | .error f => (s, .error f)
  | withdraw, s =>
    match s.delete m.node.path with
    | .ok s => (s, .ok ())
    | .error f => (s, .error f)
  | scan, s => (s, s.scan servicePrefix)
  | renew lease, s => (s, s.keepAlive lease)
  | retire, s =>
    match s.delete m.node.path with
    | .ok s => (s, .ok ())
    | .error f => (s, .error f)

end CallPoint

namespace Member

/-- The last part of a round: the lease is renewed, if there is one. -/
def renewStep (m : Member) : Next :=
  match m.lease with
  | some l => .call (.renew l)
  | none => .done (.ok ())

/-- The middle part of a round: the topology is read if it has to be. -/
def syncStep (m : Member) (now : Nat) : Next :=
  if m.needsResync now then .call .scan else m.renewStep

/-- Starts a round of upkeep. A withdrawn member does nothing. -/
def tick (m : Member) (now : Nat) : Next :=
  if m.isCancelled then .done (.ok ())
  else if m.lease.isNone then .call .grant
  else m.syncStep now

/-- Starts to withdraw the member. -/
def deregister (m : Member) : Member × Next := ({ m with isCancelled := true }, .call .retire)

/-- Applies events up to the first that changes something, which is told to the watchers before
the next one is looked at. Without a snapshot events are ignored. -/
def applyEvents (m : Member) : List Event → Member × Next
  | [] => (m, .done (.ok ()))
  | e :: rest =>
    match m.snapshot with
    | none => applyEvents m rest
    | some t =>
      let (t, changed) := t.apply e
      let m := { m with snapshot := some t }
      if changed then (m, .notify (.applied rest)) else applyEvents m rest

/-- A renewal failed. At the limit the lease and the snapshot are given up together. -/
def renewalFailed (m : Member) : Member :=
  let failures := m.failures + 1
  if m.settings.maxKeepAliveRetry ≤ failures then
    { m with lease := none, failures := 0, snapshot := none }
  else { m with failures }

/-- Goes on with the answer of the store. A member that was withdrawn while it waited takes
nothing over from the answer. -/
def resume (m : Member) (now : Nat) : (p : CallPoint) → Except Failure p.Reply → Member × Next
  | .grant, .error f => (m, .done (.error f))
  | .grant, .ok lease =>
    if m.isCancelled then (m, .done (.error .withdrawn)) else (m, .call (.publish lease))
  | .publish _, .error f => (m, .done (.error f))
  | .publish lease, .ok _ =>
    if m.isCancelled then (m, .call .withdraw)
    else
      let m := { m with lease := some lease, failures := 0 }
      (m, m.syncStep now)
  | .withdraw, _ => (m, .done (.error .withdrawn))
  | .scan, .error _ => (m, m.renewStep)
  | .scan, .ok records =>
    if m.isCancelled then (m, m.renewStep)
    else
      ({ m with snapshot := some (Topology.ofScan records), lastSync := some now }, .notify .synced)
  | .renew _, reply =>
    if m.isCancelled then (m, .done (.ok ()))
    else
      match reply with
      | .ok _ => ({ m with failures := 0 }, .done (.ok ()))
      | .error _ => (m.renewalFailed, .done (.ok ()))
  | .retire, _ =>
    ({ m with lease := none, failures := 0, lastSync := none, snapshot := none },
      .notify .finished)

/-- Goes on behind a delivered notification. -/
def notified (m : Member) : NoticePoint → Member × Next
  | .synced => (m, m.renewStep)
  | .applied rest => m.applyEvents rest
  | .finished => (m, .done (.ok ()))

/-- The watch broke: whatever happened meanwhile is unknown, so the topology is read again. -/
def watchBroken (m : Member) : Member := { m with lastSync := none }

end Member

end ServiceMesh
