import ServiceMesh.Cluster.Control

/-! The clients of the parties of a cluster: slots, builders with their resolvers, and pools. -/

namespace ServiceMesh.Cluster

/-- Starts a task that refreshes a client at each signal of the bus. -/
def follow (c : Cluster) (party : String) (who : Follower) : Cluster :=
  let (b, sink) := (c.bus party).subscribe
  ((c.setBus party b).spawn (.follow party sink who)).1

def addSlot (c : Cluster) (party id : String) (start : UInt64) (follows : Bool) : Cluster :=
  let c := { c with slots := c.slots.insert id ⟨party, { roundRobin := ⟨start⟩ }⟩ }
  (if follows then c.follow party (.slot id) else c).settle

/-- The next node of a service; nothing as long as the slot has no selector. -/
def nextNode (c : Cluster) (id name : String) : Cluster × Option (Except Failure Node) :=
  match c.slots.get? id with
  | none => (c, none)
  | some s =>
    if ¬s.value.isBuilt then (c, none)
    else
      let (slot, r) := s.value.next (c.directory s.party) name
      ({ c with slots := c.slots.insert id { s with value := slot } }, some r)

def resolve (c : Cluster) (id url : String) : Cluster × Except Failure String :=
  match c.slots.get? id with
  | none => (c, .error .notReady)
  | some s =>
    let (slot, r) := s.value.resolve (c.directory s.party) url
    ({ c with slots := c.slots.insert id { s with value := slot } }, r)

def addBuilder (c : Cluster) (party id : String) (follows : Bool) : Cluster :=
  let c := { c with builders := c.builders.insert id ⟨party, []⟩ }
  (if follows then c.follow party (.builder id) else c).settle

def buildResolver (c : Cluster) (builder id target : String) :
    Cluster × Except Failure Resolver :=
  match c.builders.get? builder with
  | none => (c, .error .notReady)
  | some b =>
    match Resolver.build (c.directory b.party) target with
    | .error f => (c, .error f)
    | .ok r =>
      let resolvers := c.resolvers.insert id ⟨b.party, r⟩
      let builders := c.builders.insert builder { b with value := b.value ++ [id] }
      ({ c with resolvers, builders }.settle, .ok r)

def resolver? (c : Cluster) (id : String) : Option Resolver := (c.resolvers.get? id).map (·.value)

/-- The addresses that a resolver would tell now. -/
def resolverAddresses (c : Cluster) (id : String) : Except Failure (List String) :=
  match c.resolvers.get? id with
  | some r => (c.directory r.party).addresses r.value.service
  | none => .error .notReady

def notifyAll (c : Cluster) (builder : String) : Cluster := (c.notifyResolvers builder).settle

def modifyResolver (c : Cluster) (id : String) (f : Directory → Resolver → Resolver) : Cluster :=
  match c.resolvers.get? id with
  | some r =>
    let changed := { r with value := f (c.directory r.party) r.value }
    { c with resolvers := c.resolvers.insert id changed }.settle
  | none => c

def pushResolver (c : Cluster) (id : String) : Cluster := c.modifyResolver id fun d r => r.push d

def dropChannel (c : Cluster) (id : String) : Cluster :=
  c.modifyResolver id fun _ r => r.dropChannel

def addPool (c : Cluster) (party id : String) (pool : Pool) (follows : Bool) : Cluster :=
  let c := { c with pools := c.pools.insert id ⟨party, pool⟩ }
  (if follows then c.follow party (.pool id) else c).settle

/-- The tasks that refresh a pool, and their inboxes. -/
def poolTasks (c : Cluster) (id : String) : List (Nat × Nat) :=
  c.tasks.filterMap fun t =>
    match t.work with
    | .follow _ sink (.pool pool) => if pool = id then some (t.id, sink) else none
    | _ => none

/-- Brings a pool up to date and keeps it so from then on, unless that is done already. The inbox is
there before the registry is read, so no change is missed. -/
def keepSynced (c : Cluster) (party id : String) : Cluster :=
  if c.poolTasks id = [] then ((c.follow party (.pool id)).syncPool id).settle else c

/-- No longer keeps a pool up to date. -/
def release (c : Cluster) (party id : String) : Cluster :=
  (c.poolTasks id).foldl (fun c t =>
    (c.setBus party ((c.bus party).close t.2)).setTask t.1 none) c

def poolAddresses (c : Cluster) (id : String) : List String :=
  match c.pools.get? id with
  | some p => p.value.addresses
  | none => []

def selectBackend (c : Cluster) (id service : String) : Cluster × Except Failure Backend :=
  match c.pools.get? id with
  | none => (c, .error .notReady)
  | some p =>
    let (pool, r) := p.value.select service
    ({ c with pools := c.pools.insert id { p with value := pool } }, r)

end ServiceMesh.Cluster
