import ServiceMesh.Balance.Pool
import ServiceMesh.Balance.Resolver
import ServiceMesh.Balance.Selector
import ServiceMesh.Lease.Routine
import ServiceMesh.Notify.Bus
import ServiceMesh.Store.Feed

/-!
A cluster: stores, the parties that look services up in them, the clients of those parties, and the
tasks that are under way, at one moment of time. Times are in milliseconds from the start. A task
is data: it says what is waited for and what has been learned so far, so the state of a cluster is
all there is to know about its future.
-/

namespace ServiceMesh

/-- The kinds of calls to a store, as far as delays tell them apart. -/
inductive CallKind where
  | grant
  | put
  | scan
  | delete
  | keepAlive
  | watch
  deriving DecidableEq, Repr

def CallPoint.kind : CallPoint → CallKind
  | grant => .grant
  | publish _ => .put
  | withdraw => .delete
  | scan => .scan
  | renew _ => .keepAlive
  | retire => .delete

/-- How long a call is on its way to the store, and its answer on the way back. -/
structure Delay where
  before : Nat := 0
  after : Nat := 0
  deriving DecidableEq, Repr, Inhabited

/-- A member together with the store it calls and the delays of its calls. -/
structure Leased where
  member : Member
  store : Nat
  delays : List (CallKind × Delay) := []
  deriving Inhabited

namespace Leased

def delay (l : Leased) (k : CallKind) : Delay :=
  match l.delays.find? fun d => d.1 = k with
  | some d => d.2
  | none => {}

def setDelay (l : Leased) (k : CallKind) (d : Delay) : Leased :=
  { l with delays := (k, d) :: l.delays.filter fun e => e.1 ≠ k }

end Leased

/-- Where a party gets its answers from. -/
inductive Registrar where
  | detached
  | scripted (script : Script) (node : Node)
  | leased (l : Leased)
  deriving Inhabited

namespace Registrar

def directory : Registrar → Directory
  | detached => .detached
  | scripted s _ => s.directory
  | leased l => l.member.directory

/-- The node that a party registers. -/
def node? : Registrar → Option Node
  | detached => none
  | scripted _ n => some n
  | leased l => some l.member.node

end Registrar

/-- Someone who takes part: a registrar, and the bus on which its changes are told. -/
structure Party where
  bus : Bus
  registrar : Registrar
  deriving Inhabited

/-- A call to the store that is under way. The caller gives up at the deadline; a call that has
reached the store by then has had its effect all the same. -/
structure Flight where
  point : CallPoint
  actsAt : Nat
  answersAt : Nat
  deadline : Nat
  reply : Option (Except Failure point.Reply)

/-- What a routine waits for. -/
inductive Wait where
  | call (f : Flight)
  | notice (n : Notification) (p : NoticePoint)

/-- The loop that keeps a member registered. -/
inductive KeepAliveLoop where
  | sleeping (until_ : Nat)
  | ticking (w : Wait)
  | backingOff (until_ : Nat)

/-- What is put into a stream of events from outside. -/
inductive Injection where
  | failure
  | ending
  | batch (events : List Event)

/-- The loop that follows the events of the store. -/
inductive WatchLoop where
  | subscribing (actsAt answersAt : Nat) (reply : Option (Except Failure Feed))
  | streaming (feed : Feed) (injected : List Injection)
  | applying (feed : Feed) (injected : List Injection) (w : Wait)
  | backingOff (until_ : Nat)

/-- The loop with something more in its stream; nothing if it has no stream. -/
def WatchLoop.inject? (what : Injection) : WatchLoop → Option WatchLoop
  | .streaming feed injected => some (.streaming feed (injected ++ [what]))
  | .applying feed injected w => some (.applying feed (injected ++ [what]) w)
  | _ => none

/-- Who refreshes itself at each signal of a bus. -/
inductive Follower where
  | slot (id : String)
  | builder (id : String)
  | pool (id : String)

inductive Work where
  | routine (party : String) (w : Wait)
  | keepAlive (party : String) (loop : KeepAliveLoop)
  | watch (party : String) (loop : WatchLoop)
  | follow (party : String) (sink : Nat) (who : Follower)

structure Task where
  id : Nat
  work : Work

/-- A client that belongs to a party. -/
structure Owned (α : Type) where
  party : String
  value : α
  deriving Inhabited

structure Cluster where
  now : Nat := 0
  /-- The shared store comes first; the others are private to one party. -/
  stores : List Store := [.empty]
  parties : KeyMap Party := ∅
  tasks : List Task := []
  nextTask : Nat := 0
  /-- How the finished routines ended. -/
  outcomes : List (Nat × Except Failure Unit) := []
  feeds : KeyMap Feed := ∅
  /-- Inboxes that are emptied from outside: the party, and the watcher on its bus. -/
  inboxes : KeyMap (Owned Nat) := ∅
  slots : KeyMap (Owned SelectorSlot) := ∅
  builders : KeyMap (Owned (List String)) := ∅
  resolvers : KeyMap (Owned Resolver) := ∅
  pools : KeyMap (Owned Pool) := ∅
  deriving Inhabited

namespace Cluster

def store (c : Cluster) (i : Nat) : Store := c.stores.getD i .empty

def setStore (c : Cluster) (i : Nat) (s : Store) : Cluster := { c with stores := c.stores.set i s }

def shared (c : Cluster) : Store := c.store 0

def setShared (c : Cluster) (s : Store) : Cluster := c.setStore 0 s

def party? (c : Cluster) (id : String) : Option Party := c.parties.get? id

def setParty (c : Cluster) (id : String) (p : Party) : Cluster :=
  { c with parties := c.parties.insert id p }

def directory (c : Cluster) (id : String) : Directory :=
  match c.party? id with
  | some p => p.registrar.directory
  | none => .detached

def bus (c : Cluster) (id : String) : Bus :=
  match c.party? id with
  | some p => p.bus
  | none => .new 1 .block

def setBus (c : Cluster) (id : String) (b : Bus) : Cluster :=
  match c.party? id with
  | some p => c.setParty id { p with bus := b }
  | none => c

def leased? (c : Cluster) (id : String) : Option Leased :=
  match c.party? id with
  | some ⟨_, .leased l⟩ => some l
  | _ => none

def member? (c : Cluster) (id : String) : Option Member := (c.leased? id).map (·.member)

def setLeased (c : Cluster) (id : String) (l : Leased) : Cluster :=
  match c.party? id with
  | some p => c.setParty id { p with registrar := .leased l }
  | none => c

def setMember (c : Cluster) (id : String) (m : Member) : Cluster :=
  match c.leased? id with
  | some l => c.setLeased id { l with member := m }
  | none => c

/-- Starts a task at the end of the line. -/
def spawn (c : Cluster) (w : Work) : Cluster × Nat :=
  ({ c with tasks := c.tasks ++ [⟨c.nextTask, w⟩], nextTask := c.nextTask + 1 }, c.nextTask)

def task? (c : Cluster) (id : Nat) : Option Task := c.tasks.find? fun t => t.id = id

/-- Goes on with a task, at the end of the line, or ends it. So of two tasks that wait for the same
thing the one that has waited longer stands in front. -/
def setTask (c : Cluster) (id : Nat) (w : Option Work) : Cluster :=
  { c with tasks := (c.tasks.filter fun t => t.id ≠ id) ++ (w.map (Task.mk id)).toList }

/-- How a routine ended, if it has. -/
def outcome? (c : Cluster) (id : Nat) : Option (Except Failure Unit) :=
  (c.outcomes.find? fun o => o.1 = id).map (·.2)

end Cluster

end ServiceMesh
