import ServiceMesh.Cluster.Basic

/-!
One step of one task. A task that waits for something that is not there yet has no step; every
other task has exactly one.
-/

namespace ServiceMesh.Cluster

/-- Follows up what a routine needs next: a call sets out, a notification is prepared. -/
def issue (c : Cluster) (party : String) : Next → Wait ⊕ Except Failure Unit
  | .done r => .inr r
  | .notify p => .inl (.notice (c.bus party).announce p)
  | .call p =>
    match c.leased? party with
    | none => .inr (.error .notReady)
    | some l =>
      let d := l.delay p.kind
      .inl (.call {
        point := p
        actsAt := c.now + d.before
        answersAt := c.now + d.before + d.after
        deadline := c.now + l.member.settings.callTimeout
        reply := none })

/-- A member went on; its routine goes on with it. -/
def continueWith (c : Cluster) (party : String) (s : Member × Next) :
    Cluster × (Wait ⊕ Except Failure Unit) :=
  let c := c.setMember party s.1
  (c, c.issue party s.2)

def answer (c : Cluster) (party : String) (m : Member) (p : CallPoint)
    (reply : Except Failure p.Reply) : Cluster × (Wait ⊕ Except Failure Unit) :=
  c.continueWith party (m.resume c.now p reply)

/-- One step of a call: it reaches the store, its answer comes back, or the caller gives up. What
is due at the deadline still counts. -/
def stepFlight (c : Cluster) (party : String) (f : Flight) :
    Option (Cluster × (Wait ⊕ Except Failure Unit)) := do
  let l ← c.leased? party
  match f.reply with
  | none =>
    if f.actsAt ≤ c.now ∧ f.actsAt ≤ f.deadline then
      let (s, reply) := f.point.perform l.member (c.store l.store)
      some (c.setStore l.store s, .inl (.call { f with reply := some reply }))
    else if f.deadline ≤ c.now then
      some (c.answer party l.member f.point (.error .callTimedOut))
    else none
  | some reply =>
    if f.answersAt ≤ c.now ∧ f.answersAt ≤ f.deadline then
      some (c.answer party l.member f.point reply)
    else if f.deadline ≤ c.now then
      some (c.answer party l.member f.point (.error .callTimedOut))
    else none

def stepWait (c : Cluster) (party : String) : Wait →
    Option (Cluster × (Wait ⊕ Except Failure Unit))
  | .call f => c.stepFlight party f
  | .notice n p =>
    match (c.bus party).advance n with
    | (b, some n') => if n' = n then none else some (c.setBus party b, .inl (.notice n' p))
    | (b, none) =>
      let c := c.setBus party b
      match c.member? party with
      | some m => some (c.continueWith party (m.notified p))
      | none => some (c, .inr (.ok ()))

def isCancelled (c : Cluster) (party : String) : Bool :=
  match c.member? party with
  | some m => m.isCancelled
  | none => true

def settings (c : Cluster) (party : String) : LeaseSettings :=
  match c.member? party with
  | some m => m.settings
  | none => {}

/-- Back to sleep after a round of upkeep; longer after a failed one. -/
def afterTick (c : Cluster) (party : String) : Except Failure Unit → KeepAliveLoop
  | .ok _ => .sleeping (c.now + (c.settings party).tick)
  | .error _ => .backingOff (c.now + (c.settings party).retryBackoff)

/-- What a finished or waiting round means for the loop. -/
def afterTickStep (c : Cluster) (party : String) :
    Wait ⊕ Except Failure Unit → Option Work
  | .inl w => some (.keepAlive party (.ticking w))
  | .inr r => some (.keepAlive party (c.afterTick party r))

def stepKeepAlive (c : Cluster) (party : String) : KeepAliveLoop → Option (Cluster × Option Work)
  | .sleeping t =>
    if c.isCancelled party then some (c, none)
    else if t ≤ c.now then do
      let m ← c.member? party
      let next := c.issue party (m.tick c.now)
      some (c, c.afterTickStep party next)
    else none
  | .ticking w => do
    let (c, next) ← c.stepWait party w
    some (c, c.afterTickStep party next)
  | .backingOff t =>
    if c.isCancelled party then some (c, none)
    else if t ≤ c.now then
      some (c, some (.keepAlive party (.sleeping (c.now + (c.settings party).tick))))
    else none

def subscribing (c : Cluster) (party : String) : WatchLoop :=
  match c.leased? party with
  | some l =>
    let d := l.delay .watch
    .subscribing (c.now + d.before) (c.now + d.before + d.after) none
  | none => .backingOff c.now

/-- The stream broke, or there was none. -/
def watchBroke (c : Cluster) (party : String) : Cluster × Option Work :=
  match c.member? party with
  | some m =>
    (c.setMember party m.watchBroken,
      some (.watch party (.backingOff (c.now + m.settings.retryBackoff))))
  | none => (c, none)

def applyBatch (c : Cluster) (party : String) (feed : Feed) (injected : List Injection)
    (events : List Event) : Cluster × Option Work :=
  match c.member? party with
  | some m =>
    match c.continueWith party (m.applyEvents events) with
    | (c, .inl w) => (c, some (.watch party (.applying feed injected w)))
    | (c, .inr _) => (c, some (.watch party (.streaming feed injected)))
  | none => (c, none)

def stepWatch (c : Cluster) (party : String) : WatchLoop → Option (Cluster × Option Work)
  | .subscribing actsAt answersAt reply => do
    let l ← c.leased? party
    if l.member.isCancelled then some (c, none)
    else
      match reply with
      | none =>
        if actsAt ≤ c.now then
          let reply := (c.store l.store).watch servicePrefix
          some (c, some (.watch party (.subscribing actsAt answersAt (some reply))))
        else none
      | some reply =>
        if answersAt ≤ c.now then
          match reply with
          | .ok feed => some (c, some (.watch party (.streaming feed [])))
          | .error _ => some (c.watchBroke party)
        else none
  | .streaming feed injected => do
    let l ← c.leased? party
    if l.member.isCancelled then some (c, none)
    else
      match feed.next (c.store l.store) with
      | (feed, some (.ok e)) => some (c.applyBatch party feed injected [e])
      | (_, some (.error _)) => some (c.watchBroke party)
      | (read, none) =>
        match injected with
        | [] =>
          -- what the feed passed over counts as read
          if read = feed then none else some (c, some (.watch party (.streaming read [])))
        | .batch events :: injected => some (c.applyBatch party read injected events)
        | _ => some (c.watchBroke party)
  | .applying feed injected w => do
    match ← c.stepWait party w with
    | (c, .inl w) => some (c, some (.watch party (.applying feed injected w)))
    | (c, .inr _) => some (c, some (.watch party (.streaming feed injected)))
  | .backingOff t =>
    if c.isCancelled party then some (c, none)
    else if t ≤ c.now then some (c, some (.watch party (c.subscribing party)))
    else none

/-- Tells every resolver of a builder the addresses of the moment; closed ones are let go. -/
def notifyResolvers (c : Cluster) (builder : String) : Cluster :=
  match c.builders.get? builder with
  | none => c
  | some b =>
    let open_ := b.value.filter fun id =>
      match c.resolvers.get? id with
      | some r => !r.value.isClosed
      | none => false
    let c := { c with builders := c.builders.insert builder { b with value := open_ } }
    open_.foldl (fun c id =>
      match c.resolvers.get? id with
      | some r =>
        let pushed := r.value.push (c.directory r.party)
        { c with resolvers := c.resolvers.insert id { r with value := pushed } }
      | none => c) c

def syncPool (c : Cluster) (id : String) : Cluster :=
  match c.pools.get? id with
  | some p =>
    { c with pools := c.pools.insert id { p with value := p.value.sync (c.directory p.party) } }
  | none => c

def rebuildSlot (c : Cluster) (id : String) : Cluster :=
  match c.slots.get? id with
  | some s => { c with slots := c.slots.insert id { s with value := s.value.rebuild } }
  | none => c

def refresh (c : Cluster) : Follower → Cluster
  | .slot id => c.rebuildSlot id
  | .builder id => c.notifyResolvers id
  | .pool id => c.syncPool id

def stepFollow (c : Cluster) (party : String) (sink : Nat) (who : Follower) :
    Option (Cluster × Option Work) :=
  let b := c.bus party
  match b.sink? sink with
  | none => some (c, none)
  | some s =>
    if 0 < s.queued then
      some ((c.setBus party (b.drain sink 1).1).refresh who, some (.follow party sink who))
    else none

/-- One step of a task; nothing if it waits. A routine that ends leaves its outcome behind. -/
def stepTask (c : Cluster) (t : Task) : Option Cluster :=
  match t.work with
  | .routine party w =>
    match c.stepWait party w with
    | none => none
    | some (c, .inl w) => some (c.setTask t.id (some (.routine party w)))
    | some (c, .inr r) => some { c.setTask t.id none with outcomes := (t.id, r) :: c.outcomes }
  | .keepAlive party l => (c.stepKeepAlive party l).map fun r => r.1.setTask t.id r.2
  | .watch party l => (c.stepWatch party l).map fun r => r.1.setTask t.id r.2
  | .follow party sink who => (c.stepFollow party sink who).map fun r => r.1.setTask t.id r.2

end ServiceMesh.Cluster
