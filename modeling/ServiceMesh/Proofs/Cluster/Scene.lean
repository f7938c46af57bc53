import ServiceMesh.Cluster.Schedule
import ServiceMesh.Proofs.Cluster.Frame

/-!
A cluster as one member sees it: the time, the member with the delays of its calls, the store that
it uses and its own tasks. For a member everything that happens in a cluster is one of a few steps;
they are listed here once, and whatever holds along all runs is proved from the list.
-/

namespace ServiceMesh

/-- What a flight that is due hands to its routine. -/
inductive Flight.Yields (f : Flight) (now : Nat) : Except Failure f.point.Reply → Prop where
  /-- The answer came in time. -/
  | answer {r : Except Failure f.point.Reply} (hr : f.reply = some r) (hdue : f.answersAt ≤ now)
      (hin : f.answersAt ≤ f.deadline) : f.Yields now r
  /-- The caller gave up before the store acted. -/
  | unsent (hr : f.reply = none) (hlate : f.deadline < f.actsAt) (hdue : f.deadline ≤ now) :
      f.Yields now (.error .callTimedOut)
  /-- The store acted, but the caller gave up before it knew. -/
  | unheard {r : Except Failure f.point.Reply} (hr : f.reply = some r)
      (hlate : f.deadline < f.answersAt) (hdue : f.deadline ≤ now) :
      f.Yields now (.error .callTimedOut)

theorem Flight.Yields.reply_eq {f : Flight} {now : Nat} {r : f.point.Reply}
    (h : f.Yields now (.ok r)) : f.reply = some (.ok r) := by
  cases h with
  | answer hr hdue hin => exact hr

/-- A call that was answered in time yields the answer. -/
theorem Flight.Yields.eq_of_reply {f : Flight} {now : Nat} {r r' : Except Failure f.point.Reply}
    (h : f.Yields now r) (hr : f.reply = some r') (hin : f.answersAt ≤ f.deadline) : r = r' := by
  cases h with
  | answer hr' _ _ => exact Option.some.inj (hr'.symm.trans hr)
  | unsent hn _ _ => cases hn.symm.trans hr
  | unheard _ hlate _ => omega

def Flight.Fails (f : Flight) (now : Nat) : Prop := ∃ e, f.Yields now (.error e)

theorem Flight.fails_iff {f : Flight} {now : Nat} :
    f.Fails now ↔
      (f.reply = none ∧ f.deadline < f.actsAt ∧ f.deadline ≤ now) ∨
        ∃ r ∈ f.reply, (f.deadline < f.answersAt ∧ f.deadline ≤ now) ∨
          (f.answersAt ≤ now ∧ f.answersAt ≤ f.deadline ∧ r.isOk = false) := by
  constructor
  · rintro ⟨e, h⟩
    cases h with
    | answer hr hdue hin => exact .inr ⟨_, hr, .inr ⟨hdue, hin, rfl⟩⟩
    | unsent hr hlate hdue => exact .inl ⟨hr, hlate, hdue⟩
    | unheard hr hlate hdue => exact .inr ⟨_, hr, .inl ⟨hlate, hdue⟩⟩
  · rintro (⟨hr, hlate, hdue⟩ | ⟨r, hr, ⟨hlate, hdue⟩ | ⟨hdue, hin, hok⟩⟩)
    · exact ⟨_, .unsent hr hlate hdue⟩
    · exact ⟨_, .unheard hr hlate hdue⟩
    · cases r with
      | ok r => cases hok
      | error e => exact ⟨e, .answer hr hdue hin⟩

instance (f : Flight) (now : Nat) : Decidable (f.Fails now) := decidable_of_iff _ f.fails_iff.symm

namespace Leased

def flight (l : Leased) (now : Nat) (p : CallPoint) : Flight where
  point := p
  actsAt := now + (l.delay p.kind).before
  answersAt := now + (l.delay p.kind).before + (l.delay p.kind).after
  deadline := now + l.member.settings.callTimeout
  reply := none

/-- How what a routine needs next is followed up, whoever watches the bus. -/
inductive Issues (l : Leased) (now : Nat) : Next → Wait ⊕ Except Failure Unit → Prop where
  | done (r : Except Failure Unit) : l.Issues now (.done r) (.inr r)
  | notify (n : Notification) (p : NoticePoint) : l.Issues now (.notify p) (.inl (.notice n p))
  | call (p : CallPoint) : l.Issues now (.call p) (.inl (.call (l.flight now p)))

end Leased

def KeepAliveLoop.IsResting : KeepAliveLoop → Prop
  | ticking _ => False
  | _ => True

/-- The loop is not in the middle of an event. -/
def WatchLoop.IsResting : WatchLoop → Prop
  | applying _ _ _ => False
  | _ => True

def WatchLoop.after (feed : Feed) (injected : List Injection) :
    Wait ⊕ Except Failure Unit → WatchLoop
  | .inl w => .applying feed injected w
  | .inr _ => .streaming feed injected

/-- What the routine waits for that a task runs at the moment. -/
def Work.wait? : Work → Option Wait
  | routine _ w => some w
  | keepAlive _ (.ticking w) => some w
  | watch _ (.applying _ _ w) => some w
  | _ => none

theorem Work.dueAt_of_wait? {w : Work} {x : Wait} (h : w.wait? = some x) : w.dueAt = x.dueAt := by
  cases w with
  | routine q y =>
      obtain rfl := Option.some.inj h
      rfl
  | keepAlive q loop =>
      cases loop with
      | ticking y =>
          obtain rfl := Option.some.inj h
          rfl
      | _ => cases h
  | watch q loop =>
      cases loop with
      | applying feed injected y =>
          obtain rfl := Option.some.inj h
          rfl
      | _ => cases h
  | follow q sink who => cases h

structure Scene where
  now : Nat
  leased : Leased
  store : Store
  /-- What the tasks of the member do, by their numbers. -/
  work : Nat → Option Work
  nextTask : Nat

namespace Scene

def member (σ : Scene) : Member := σ.leased.member

def put (σ : Scene) (m : Member) (s : Store) : Scene :=
  { σ with leased := { σ.leased with member := m }, store := s }

def setWork (σ : Scene) (id : Nat) (w : Option Work) : Scene :=
  { σ with work := fun i => if i = id then w else σ.work i }

def spawn (σ : Scene) (w : Work) : Scene :=
  { σ.setWork σ.nextTask (some w) with nextTask := σ.nextTask + 1 }

/-- The scene after the number of a task was used up without a task of the member. -/
def skip (σ : Scene) : Scene := { σ with nextTask := σ.nextTask + 1 }

def feedIn (σ : Scene) (what : Injection) : Scene :=
  { σ with
    work := fun id => (σ.work id).map fun w =>
      match w with
      | .watch q loop => .watch q ((loop.inject? what).getD loop)
      | w => w }

/-- A routine of the member has gone on to a point, and this is followed up. -/
def Continues (σ : Scene) (s : Member × Next) (r : Wait ⊕ Except Failure Unit) : Prop :=
  Leased.Issues { σ.leased with member := s.1 } σ.now s.2 r

/-- One step of what a routine waits for: the member and the store afterwards, and what the routine
waits for then or how it ended. -/
inductive Advances (σ : Scene) : Wait → Member → Store → Wait ⊕ Except Failure Unit → Prop where
  | acts {f : Flight} (hr : f.reply = none) (hdue : f.actsAt ≤ σ.now)
      (hin : f.actsAt ≤ f.deadline) :
      σ.Advances (.call f) σ.member (f.point.perform σ.member σ.store).1
        (.inl (.call { f with reply := some (f.point.perform σ.member σ.store).2 }))
  | resumes {f : Flight} {reply : Except Failure f.point.Reply} {r : Wait ⊕ Except Failure Unit}
      (h : f.Yields σ.now reply) (hr : σ.Continues (σ.member.resume σ.now f.point reply) r) :
      σ.Advances (.call f) (σ.member.resume σ.now f.point reply).1 σ.store r
  | held {n : Notification} {p : NoticePoint} (n' : Notification) :
      σ.Advances (.notice n p) σ.member σ.store (.inl (.notice n' p))
  | told {n : Notification} {p : NoticePoint} {r : Wait ⊕ Except Failure Unit}
      (hr : σ.Continues (σ.member.notified p) r) :
      σ.Advances (.notice n p) (σ.member.notified p).1 σ.store r

/-- One step of a task of the member: the member and the store afterwards, and what the task does
then if it goes on. -/
inductive Goes (p : String) (σ : Scene) : Work → Member → Store → Option Work → Prop where
  | routine {w w' : Wait} {m : Member} {s : Store} (h : σ.Advances w m s (.inl w')) :
      Goes p σ (.routine p w) m s (some (.routine p w'))
  | routineEnds {w : Wait} {m : Member} {s : Store} {r : Except Failure Unit}
      (h : σ.Advances w m s (.inr r)) : Goes p σ (.routine p w) m s none
  | ticks {t : Nat} {w : Wait} (hc : σ.member.isCancelled = false) (hdue : t ≤ σ.now)
      (h : σ.leased.Issues σ.now (σ.member.tick σ.now) (.inl w)) :
      Goes p σ (.keepAlive p (.sleeping t)) σ.member σ.store (some (.keepAlive p (.ticking w)))
  | ticking {w w' : Wait} {m : Member} {s : Store} (h : σ.Advances w m s (.inl w')) :
      Goes p σ (.keepAlive p (.ticking w)) m s (some (.keepAlive p (.ticking w')))
  | tickEnds {w : Wait} {m : Member} {s : Store} {r : Except Failure Unit} {loop : KeepAliveLoop}
      (h : σ.Advances w m s (.inr r)) (hl : loop.IsResting) :
      Goes p σ (.keepAlive p (.ticking w)) m s (some (.keepAlive p loop))
  | rests {loop loop' : KeepAliveLoop} (hc : σ.member.isCancelled = false) (hl : loop.IsResting)
      (hl' : loop'.IsResting) :
      Goes p σ (.keepAlive p loop) σ.member σ.store (some (.keepAlive p loop'))
  | keepAliveEnds {loop : KeepAliveLoop} (hc : σ.member.isCancelled = true) (hl : loop.IsResting) :
      Goes p σ (.keepAlive p loop) σ.member σ.store none
  | subscribes {a b : Nat} (hc : σ.member.isCancelled = false) (hdue : a ≤ σ.now) :
      Goes p σ (.watch p (.subscribing a b none)) σ.member σ.store
        (some (.watch p (.subscribing a b (some (σ.store.watch servicePrefix)))))
  | streams {a b : Nat} {feed : Feed} (hc : σ.member.isCancelled = false) :
      Goes p σ (.watch p (.subscribing a b (some (.ok feed)))) σ.member σ.store
        (some (.watch p (.streaming feed [])))
  | refused {a b t : Nat} {f : Failure} (hc : σ.member.isCancelled = false) :
      Goes p σ (.watch p (.subscribing a b (some (.error f)))) σ.member.watchBroken σ.store
        (some (.watch p (.backingOff t)))
  | breaks {feed : Feed} {injected : List Injection} {t : Nat}
      (hc : σ.member.isCancelled = false) :
      Goes p σ (.watch p (.streaming feed injected)) σ.member.watchBroken σ.store
        (some (.watch p (.backingOff t)))
  | reads {feed read : Feed} (hc : σ.member.isCancelled = false)
      (h : feed.next σ.store = (read, none)) :
      Goes p σ (.watch p (.streaming feed [])) σ.member σ.store
        (some (.watch p (.streaming read [])))
  | hands {feed read : Feed} {injected : List Injection} {e : Event}
      {r : Wait ⊕ Except Failure Unit} (hc : σ.member.isCancelled = false)
      (h : feed.next σ.store = (read, some (.ok e)))
      (hr : σ.Continues (σ.member.applyEvents [e]) r) :
      Goes p σ (.watch p (.streaming feed injected)) (σ.member.applyEvents [e]).1 σ.store
        (some (.watch p (.after read injected r)))
  | handsBatch {feed read : Feed} {injected : List Injection} {events : List Event}
      {r : Wait ⊕ Except Failure Unit} (hc : σ.member.isCancelled = false)
      (h : feed.next σ.store = (read, none)) (hr : σ.Continues (σ.member.applyEvents events) r) :
      Goes p σ (.watch p (.streaming feed (.batch events :: injected)))
        (σ.member.applyEvents events).1 σ.store (some (.watch p (.after read injected r)))
  | applying {feed : Feed} {injected : List Injection} {w : Wait} {m : Member} {s : Store}
      {r : Wait ⊕ Except Failure Unit} (h : σ.Advances w m s r) :
      Goes p σ (.watch p (.applying feed injected w)) m s (some (.watch p (.after feed injected r)))
  | resubscribes {t a b : Nat} (hc : σ.member.isCancelled = false) (hdue : t ≤ σ.now) :
      Goes p σ (.watch p (.backingOff t)) σ.member σ.store
        (some (.watch p (.subscribing a b none)))
  | watchEnds {loop : WatchLoop} (hc : σ.member.isCancelled = true) (hl : loop.IsResting) :
      Goes p σ (.watch p loop) σ.member σ.store none
  | follows {sink : Nat} {who : Follower} {w : Option Work}
      (hw : ∀ w' ∈ w, w' = .follow p sink who) :
      Goes p σ (.follow p sink who) σ.member σ.store w

/-- The task has no step: whatever it waits for is due later, and its stream has nothing new. -/
structure Idles (p : String) (σ : Scene) (w : Work) : Prop where
  due : ∀ t ∈ w.dueAt, σ.now < t
  stream : ∀ feed injected, w = .watch p (.streaming feed injected) →
    injected = [] ∧ feed.next σ.store = (feed, none)
  /-- The loops of a withdrawn member do not wait. -/
  running : σ.member.isCancelled = true → w.wait? ≠ none ∨ ∃ sink who, w = .follow p sink who

/-- What happens elsewhere: the store grows and time passes, but nothing of the member changes. -/
structure Spares (σ σ' : Scene) : Prop where
  now : σ.now ≤ σ'.now
  leased : σ'.leased = σ.leased
  grows : σ.store.Grows σ'.store
  work : σ'.work = σ.work
  nextTask : σ.nextTask ≤ σ'.nextTask

/-- One act, as a member sees it. -/
inductive Step (p : String) (σ : Scene) : Cluster.Act → Scene → Prop where
  | elsewhere {a : Cluster.Act} {σ' : Scene} (h : σ.Spares σ')
      (hother : ∀ id, a = .step id → σ.work id = none) : σ.Step p a σ'
  | waits {id : Nat} {w : Work} (hw : σ.work id = some w) (h : σ.Idles p w) :
      σ.Step p (.step id) σ
  | steps {id : Nat} {w : Work} {w' : Option Work} {m : Member} {s : Store}
      (hw : σ.work id = some w) (h : σ.Goes p w m s w') :
      σ.Step p (.step id) ((σ.put m s).setWork id w')
  | slows (k : CallKind) (d : Delay) :
      σ.Step p (.slow p k d) { σ with leased := σ.leased.setDelay k d }
  | starts {r : Routine} {w : Wait} (h : σ.Continues (σ.member.start σ.now r) (.inl w)) :
      σ.Step p (.start p r)
        ((σ.put (σ.member.start σ.now r).1 σ.store).spawn (.routine p w))
  | startsAndEnds {r : Routine} {res : Except Failure Unit}
      (h : σ.Continues (σ.member.start σ.now r) (.inr res)) :
      σ.Step p (.start p r) (σ.put (σ.member.start σ.now r).1 σ.store).skip
  | registers {t a b : Nat} (hc : σ.member.isCancelled = false) (hs : σ.member.isStarted = false) :
      σ.Step p (.register p)
        (((σ.put { σ.member with isStarted := true } σ.store).spawn
          (.keepAlive p (.sleeping t))).spawn (.watch p (.subscribing a b none)))
  | drops (id : Nat) : σ.Step p (.drop id) (σ.setWork id none)
  | feedsIn (what : Injection) : σ.Step p (.feedIn p what) (σ.feedIn what)

@[simp] theorem put_nextTask (σ : Scene) (m : Member) (s : Store) :
    (σ.put m s).nextTask = σ.nextTask := rfl

theorem setWork_work (σ : Scene) (id : Nat) (w : Option Work) (i : Nat) :
    (σ.setWork id w).work i = if i = id then w else σ.work i := rfl

@[simp] theorem spawn_nextTask (σ : Scene) (w : Work) : (σ.spawn w).nextTask = σ.nextTask + 1 := rfl

theorem spawn_work (σ : Scene) (w : Work) (i : Nat) :
    (σ.spawn w).work i = if i = σ.nextTask then some w else σ.work i := rfl

theorem Spares.refl (σ : Scene) : σ.Spares σ where
  now := Nat.le_refl _
  leased := rfl
  grows := .refl _
  work := rfl
  nextTask := Nat.le_refl _

theorem Spares.trans {σ σ' σ'' : Scene} (h : σ.Spares σ') (h' : σ'.Spares σ'') : σ.Spares σ'' where
  now := Nat.le_trans h.now h'.now
  leased := h'.leased.trans h.leased
  grows := h.grows.trans h'.grows
  work := h'.work.trans h.work
  nextTask := Nat.le_trans h.nextTask h'.nextTask

theorem spares_skip (σ : Scene) : σ.Spares σ.skip where
  now := Nat.le_refl _
  leased := rfl
  grows := .refl _
  work := rfl
  nextTask := Nat.le_succ _

end Scene

end ServiceMesh
