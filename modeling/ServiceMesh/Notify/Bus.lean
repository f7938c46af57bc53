/-!
The notification bus. A change of the topology is told to every watcher as one signal without
content, in the order in which they subscribed. A watcher has an inbox of bounded size. Under the
policy `block` a notification waits at a full inbox; under `coalesce` it goes on, since the signal
already waiting there will make the watcher look again. A notification that met a closed inbox
takes the closed ones off the bus when it is done.
-/

namespace ServiceMesh

/-- What happens at a full inbox. -/
inductive NotifyPolicy where
  | block
  | coalesce
  deriving DecidableEq, Repr, Inhabited

/-- The inbox of a watcher. -/
structure Sink where
  id : Nat
  capacity : Nat
  queued : Nat
  isOpen : Bool
  deriving DecidableEq, Repr, Inhabited

structure Bus where
  /-- The size of the inboxes that the bus creates itself. -/
  capacity : Nat
  policy : NotifyPolicy
  sinks : List Sink
  nextId : Nat
  deriving DecidableEq, Repr, Inhabited

/-- A notification under way: the watchers it has not served, and whether it met a closed one. -/
structure Notification where
  rest : List Nat
  metClosed : Bool
  deriving DecidableEq, Repr, Inhabited

namespace Bus

/-- An empty bus; an inbox holds at least one signal. -/
def new (capacity : Nat) (policy : NotifyPolicy) : Bus :=
  { capacity := max capacity 1, policy, sinks := [], nextId := 0 }

def sink? (b : Bus) (id : Nat) : Option Sink := b.sinks.find? fun s => s.id = id

def modify (b : Bus) (id : Nat) (f : Sink → Sink) : Bus :=
  { b with sinks := b.sinks.map fun s => if s.id = id then f s else s }

/-- Adds a watcher with an inbox of the given size. -/
def addWatcher (b : Bus) (capacity : Nat) : Bus × Nat :=
  ({ b with sinks := b.sinks ++ [⟨b.nextId, capacity, 0, true⟩], nextId := b.nextId + 1 }, b.nextId)

def subscribe (b : Bus) : Bus × Nat := b.addWatcher b.capacity

def watcherCount (b : Bus) : Nat := b.sinks.length

/-- Takes at most `limit` signals out of an inbox. -/
def drain (b : Bus) (id : Nat) (limit : Nat) : Bus × Nat :=
  match b.sink? id with
  | some s =>
    let taken := if s.isOpen then min s.queued limit else 0
    (b.modify id fun s => { s with queued := s.queued - taken }, taken)
  | none => (b, 0)

/-- The watcher goes away. -/
def close (b : Bus) (id : Nat) : Bus := b.modify id fun s => { s with isOpen := false, queued := 0 }

/-- Takes the closed inboxes off the bus. -/
def prune (b : Bus) : Bus := { b with sinks := b.sinks.filter (·.isOpen) }

/-- A notification about to be sent to everyone who watches now. -/
def announce (b : Bus) : Notification := ⟨b.sinks.map (·.id), false⟩

/-- Serves one watcher after the other, up to the end or to an inbox that has to be waited for.
An inbox that is no longer on the bus was closed. -/
def deliver (b : Bus) (metClosed : Bool) : List Nat → Bus × Option Notification
  | [] => (if metClosed then b.prune else b, none)
  | id :: rest =>
    match b.sink? id with
    | none => deliver b true rest
    | some s =>
      if ¬s.isOpen then deliver b true rest
      else if s.queued < s.capacity then
        deliver (b.modify id fun s => { s with queued := s.queued + 1 }) metClosed rest
      else
        match b.policy with
        | .block => (b, some ⟨id :: rest, metClosed⟩)
        | .coalesce => deliver b metClosed rest

/-- Takes a notification as far as it gets; `none` says that it is complete. -/
def advance (b : Bus) (n : Notification) : Bus × Option Notification := b.deliver n.metClosed n.rest

end Bus

end ServiceMesh
