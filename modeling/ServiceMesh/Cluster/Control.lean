import ServiceMesh.Cluster.Schedule
import ServiceMesh.Registry.Kinds

/-!
What can be done to a cluster from outside: to its stores, to its parties and to their buses. Every
action is followed by everything that it sets off at the same moment.
-/

namespace ServiceMesh.Cluster

/-! ### The shared store -/

def put (c : Cluster) (key : String) (value : List UInt8) (lease : Option LeaseId) :
    Cluster × Except Failure Unit :=
  match c.shared.put key value lease with
  | .ok s => ((c.setShared s).settle, .ok ())
  | .error f => (c, .error f)

def delete (c : Cluster) (key : String) : Cluster × Except Failure Unit :=
  match c.shared.delete key with
  | .ok s => ((c.setShared s).settle, .ok ())
  | .error f => (c, .error f)

def grant (c : Cluster) : Cluster × Except Failure LeaseId :=
  match c.shared.grant with
  | .ok (s, id) => (c.setShared s, .ok id)
  | .error f => (c, .error f)

def expire (c : Cluster) (lease : LeaseId) : Cluster := (c.setShared (c.shared.expire lease)).settle

def setAvailable (c : Cluster) (on : Bool) : Cluster :=
  c.setShared { c.shared with isAvailable := on }

def setRejectsKeepAlive (c : Cluster) (on : Bool) : Cluster :=
  c.setShared { c.shared with rejectsKeepAlive := on }

/-- Writes many empty records before anyone else has a turn. -/
def flood (c : Cluster) (start : String) (count : Nat) : Cluster :=
  let s := (List.range count).foldl (fun s i =>
    match s.put (start ++ toString i) [] none with
    | .ok s => s
    | .error _ => s) c.shared
  (c.setShared s).settle

def openFeed (c : Cluster) (id start : String) : Cluster × Except Failure Unit :=
  match c.shared.watch start with
  | .ok f => ({ c with feeds := c.feeds.insert id f }, .ok ())
  | .error f => (c, .error f)

/-- What a look at a feed yields. -/
def poll (c : Cluster) (id : String) : Cluster × List (Except Failure Event) :=
  match c.feeds.get? id with
  | some f =>
    let (f, items) := f.look c.shared
    ({ c with feeds := c.feeds.insert id f }, items)
  | none => (c, [])

/-! ### Parties -/

/-- A member on a store, with a bus of its own. -/
def join (c : Cluster) (id : String) (m : Member) (store : Nat) (bus : Bus) : Cluster :=
  c.setParty id ⟨bus, .leased { member := m, store }⟩

def joinDetached (c : Cluster) (id : String) (bus : Bus) : Cluster := c.setParty id ⟨bus, .detached⟩

def joinScripted (c : Cluster) (id : String) (node : Node) (script : Script) (bus : Bus) : Cluster :=
  c.setParty id ⟨bus, .scripted script node⟩

/-- A store that only one party will use. -/
def addStore (c : Cluster) : Cluster × Nat :=
  ({ c with stores := c.stores ++ [.empty] }, c.stores.length)

def setDelay (c : Cluster) (id : String) (k : CallKind) (d : Delay) : Cluster :=
  match c.leased? id with
  | some l => c.setLeased id (l.setDelay k d)
  | none => c

/-- How long a routine is waited for before it is dropped. -/
def routinePatience : Nat := 60000

def tick (c : Cluster) (id : String) : Cluster × Option (Except Failure Unit) :=
  match c.member? id with
  | some m => c.perform id (m.tick c.now) routinePatience
  | none => (c, some (.ok ()))

/-- Starts a round of upkeep that runs beside everything else. -/
def spawnTick (c : Cluster) (id : String) : Cluster × Nat :=
  match c.member? id with
  | none => (c, c.nextTask)
  | some m =>
    match c.issue id (m.tick c.now) with
    | .inl w =>
      let (c, task) := c.spawn (.routine id w)
      (c.settle, task)
    | .inr r =>
      ({ c with outcomes := (c.nextTask, r) :: c.outcomes, nextTask := c.nextTask + 1 }, c.nextTask)

def awaitTick (c : Cluster) (task : Nat) : Cluster × Option (Except Failure Unit) :=
  let c := c.awaitTask task (c.now + routinePatience)
  (c, c.outcome? task)

def applyEvents (c : Cluster) (id : String) (events : List Event) :
    Cluster × Option (Except Failure Unit) :=
  match c.member? id with
  | some m =>
    let (m, next) := m.applyEvents events
    (c.setMember id m).perform id next routinePatience
  | none => (c, some (.ok ()))

/-- Starts the two loops of a member, once. -/
def startLoops (c : Cluster) (id : String) : Cluster :=
  match c.member? id with
  | none => c
  | some m =>
    if m.isStarted then c
    else
      let c := c.setMember id { m with isStarted := true }
      let c := (c.spawn (.keepAlive id (.sleeping (c.now + m.settings.tick)))).1
      (c.spawn (.watch id (c.subscribing id))).1

/-- Registers a party: a member starts to keep itself registered. -/
def register (c : Cluster) (id : String) : Cluster × Except Failure Unit :=
  match c.party? id with
  | some ⟨_, .leased l⟩ =>
    if l.member.isCancelled then (c, .error .withdrawn)
    else ((c.startLoops id).settle, .ok ())
  | some ⟨_, .scripted _ _⟩ => (c, .ok ())
  | _ => (c, .error .notReady)

/-- Withdraws a party and waits for that as long as it takes. One that is not registered anywhere
has nothing to do. -/
def withdraw (c : Cluster) (id : String) : Cluster × Option (Except Failure Unit) :=
  match c.member? id with
  | some m =>
    let (m, next) := m.deregister
    (c.setMember id m).complete id next
  | none => (c, some (.ok ()))

/-- Withdraws a party, and gives up waiting for that after a time. -/
def deregister (c : Cluster) (id : String) (patienceMs : Nat) :
    Cluster × Option (Except Failure Unit) :=
  match c.member? id with
  | some m =>
    let (m, next) := m.deregister
    (c.setMember id m).perform id next patienceMs
  | none => (c, some (.ok ()))

/-- The store of a kind of registry: a new one, or the one that was connected to. -/
def openStore (c : Cluster) (connection : Connection) :
    RegistryKind → Except Failure (Cluster × Nat)
  | .memory => .ok c.addStore
  | .remote =>
    match connection with
    | .ok store => .ok (c, store)
    | .error reason => .error (.config ("Failed to connect to etcd: " ++ reason))

/-- Opens a registry for a configuration; if it is of use, its member is put on the store. -/
def create (c : Cluster) (id : String) (config : RegistryConfig) (detected : String) (bus : Bus)
    (connection : Connection) : Cluster × Except Failure Node :=
  match (RegistryKind.choose config).bind (c.openStore connection) with
  | .error f => (c, .error f)
  | .ok (c, store) =>
    let node := config.node detected
    (c.join id { node, settings := .ofConfig config } store bus, .ok node)

/-- The registry of a process: whatever goes wrong leaves the party detached. -/
def init (c : Cluster) (id : String) (config : RegistryConfig) (detected : String) (bus : Bus)
    (connection : Connection) : Cluster :=
  if ¬config.enable then c.joinDetached id bus
  else
    match c.create id config detected bus connection with
    | (c, .error _) => c.joinDetached id bus
    | (c, .ok _) => (c.register id).1

/-! ### Streams of a member -/

/-- Puts something into the stream that a member follows; says whether there is one. -/
def inject (c : Cluster) (id : String) (what : Injection) : Cluster × Bool :=
  let stream? (t : Task) : Option Task :=
    match t.work with
    | .watch party loop =>
      if party = id then (loop.inject? what).map fun l => ⟨t.id, .watch party l⟩ else none
    | _ => none
  match c.tasks.findSome? stream? with
  | none => (c, false)
  | some s =>
    let tasks := c.tasks.map fun (t : Task) => if t.id = s.id then s else t
    ({ c with tasks }.settle, true)

/-! ### Buses -/

/-- An inbox on the bus of a party, to be emptied from outside; the size is that of the bus unless
another one is given. An inbox of the same name is closed. -/
def subscribe (c : Cluster) (party id : String) (capacity : Option Nat) : Cluster :=
  let c := match c.inboxes.get? id with
    | some old => c.setBus old.party ((c.bus old.party).close old.value)
    | none => c
  let (b, sink) := match capacity with
    | some n => (c.bus party).addWatcher n
    | none => (c.bus party).subscribe
  { c.setBus party b with inboxes := c.inboxes.insert id ⟨party, sink⟩ }

def drain (c : Cluster) (id : String) (limit : Option Nat) : Cluster × Nat :=
  match c.inboxes.get? id with
  | none => (c, 0)
  | some i =>
    let b := c.bus i.party
    let queued := match b.sink? i.value with
      | some s => s.queued
      | none => 0
    let (b, n) := b.drain i.value (limit.getD queued)
    ((c.setBus i.party b).settle, n)

def close (c : Cluster) (id : String) : Cluster :=
  match c.inboxes.get? id with
  | none => c
  | some i =>
    { c.setBus i.party ((c.bus i.party).close i.value) with inboxes := c.inboxes.erase id }.settle

/-- How long a notification from outside waits at full inboxes. -/
def noticePatience : Nat := 50

/-- Tells every watcher of a party to look again; `none` says that a full inbox was in the way. -/
def notify (c : Cluster) (party : String) (patienceMs : Nat) :
    Cluster × Option (Except Failure Unit) :=
  c.perform party (.notify .finished) patienceMs

def setScript (c : Cluster) (id : String) (script : Script) : Cluster :=
  match c.party? id with
  | some ⟨bus, .scripted _ node⟩ =>
    ((c.setParty id ⟨bus, .scripted script node⟩).notify id routinePatience).1
  | _ => c

end ServiceMesh.Cluster
