import ServiceMesh.Cluster.Step

/-!
The passage of time in a cluster. At one moment every task runs until it waits, each in its turn;
a task is not interrupted while it can go on. When all of them wait, time moves to the next moment
at which one of them is due.
-/

namespace ServiceMesh

namespace Wait

/-- The moment at which a call is given up. A notification waits as long as it takes. -/
def deadline? : Wait → Option Nat
  | .call f => some f.deadline
  | .notice _ _ => none

/-- The moments at which something may happen to what is waited for. -/
def dueAt : Wait → List Nat
  | .call f =>
    match f.reply with
    | none => [f.actsAt, f.deadline]
    | some _ => [f.answersAt, f.deadline]
  | .notice _ _ => []

end Wait

namespace Work

def dueAt : Work → List Nat
  | .routine _ w => w.dueAt
  | .keepAlive _ (.sleeping t) => [t]
  | .keepAlive _ (.ticking w) => w.dueAt
  | .keepAlive _ (.backingOff t) => [t]
  | .watch _ (.subscribing acts answers reply) => if reply.isSome then [answers] else [acts]
  | .watch _ (.streaming _ _) => []
  | .watch _ (.applying _ _ w) => w.dueAt
  | .watch _ (.backingOff t) => [t]
  | .follow _ _ _ => []

end Work

namespace Cluster

/-- How many steps are taken at one moment before a cluster that never comes to rest is given
up. -/
def patience : Nat := 10000000

/-- Runs one task until it waits or ends. -/
def runTask (id : Nat) : Nat → Cluster → Cluster × Bool
  | 0, c => (c, false)
  | fuel + 1, c =>
    match c.task? id with
    | none => (c, false)
    | some t =>
      match c.stepTask t with
      | none => (c, false)
      | some c => ((runTask id fuel c).1, true)

/-- Gives each task of a list its turn; says whether any of them could go on. -/
def runRound (c : Cluster) (ids : List Nat) : Cluster × Bool :=
  ids.foldl (fun r id =>
    let (c, moved) := r.1.runTask id patience
    (c, r.2 || moved)) (c, false)

def forwardAll (c : Cluster) : Cluster :=
  c.resolvers.entries.foldl (fun c r =>
    { c with resolvers := c.resolvers.insert r.1 { r.2 with value := r.2.value.forward } }) c

/-- Lets all tasks run until each of them waits. -/
def settleRounds : Nat → Cluster → Cluster
  | 0, c => c
  | fuel + 1, c =>
    match c.runRound (c.tasks.map (·.id)) with
    | (c, true) => settleRounds fuel c
    | (c, false) => c

def settle (c : Cluster) : Cluster := (settleRounds patience c).forwardAll

def nextDue? (c : Cluster) : Option Nat :=
  ((c.tasks.flatMap fun t => t.work.dueAt).filter fun t => c.now < t).min?

/-- Goes from moment to moment until the given one, or until an earlier one at which the condition
holds. -/
def waitLoop (done : Cluster → Bool) (limit : Nat) : Nat → Cluster → Cluster
  | 0, c => c
  | fuel + 1, c =>
    if done c then c
    else
      match c.nextDue? with
      | some t =>
        if t ≤ limit then waitLoop done limit fuel { c with now := t }.settle
        else { c with now := max c.now limit }.settle
      | none => { c with now := max c.now limit }.settle

/-- Lets time pass up to a moment. Each moment that is visited is later than the one before. -/
def advanceTo (c : Cluster) (t : Nat) : Cluster :=
  waitLoop (fun _ => false) t (t + 1 - c.now) c.settle

def advance (c : Cluster) (ms : Nat) : Cluster := c.advanceTo (c.now + ms)

/-- Waits for a task to end, until a moment at the latest. -/
def awaitTask (c : Cluster) (id : Nat) (limit : Nat) : Cluster :=
  waitLoop (fun c => (c.task? id).isNone) limit (limit + 1 - c.now) c.settle

/-- Starts a routine and waits for its outcome for at most the given time; after that the routine
is dropped where it stands. `none` says that it was dropped. -/
def perform (c : Cluster) (party : String) (next : Next) (patienceMs : Nat) :
    Cluster × Option (Except Failure Unit) :=
  match c.issue party next with
  | .inr r => (c.settle, some r)
  | .inl w =>
    let (c, id) := c.spawn (.routine party w)
    -- the new routine goes first
    let c := (c.runTask id patience).1
    let c := c.awaitTask id (c.now + patienceMs)
    match c.outcome? id with
    | some r => (c.settle, some r)
    | none => ((c.setTask id none).settle, none)

/-- Starts a routine of one call and waits for its outcome as long as it takes. The call is over at
its deadline at the latest, and from then on only a full inbox can be in the way. Whoever of the
cluster empties an inbox does so at once, so time alone does not help: `none` says that the routine
waits for ever. -/
def complete (c : Cluster) (party : String) (next : Next) :
    Cluster × Option (Except Failure Unit) :=
  match c.issue party next with
  | .inr r => (c.settle, some r)
  | .inl w =>
    let (c, id) := c.spawn (.routine party w)
    -- the new routine goes first
    let c := (c.runTask id patience).1
    let c := c.awaitTask id (w.deadline?.getD c.now)
    (c, c.outcome? id)

end Cluster

end ServiceMesh
