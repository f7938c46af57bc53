import ServiceMesh.Proofs.Cluster.Scene

/-! Every act of a cluster is, as a member sees it, one of the steps of its scene. -/

namespace ServiceMesh

namespace Cluster

def work? (c : Cluster) (p : String) (id : Nat) : Option Work :=
  (c.task? id).bind fun t => if t.work.party = p then some t.work else none

/-- The cluster is as the scene tells it, as far as a party with a member sees it. -/
structure Shows (p : String) (c : Cluster) (σ : Scene) : Prop where
  leased : c.leased? p = some σ.leased
  hosted : σ.leased.store < c.stores.length
  now : c.now = σ.now
  store : c.store σ.leased.store = σ.store
  work : ∀ id, c.work? p id = σ.work id
  nextTask : c.nextTask = σ.nextTask

variable {c : Cluster} {p q : String} {σ : Scene}

theorem work?_eq_some_iff {id : Nat} {w : Work} :
    c.work? p id = some w ↔ c.task? id = some ⟨id, w⟩ ∧ w.party = p := by
  rw [work?, Option.bind_eq_some_iff]
  constructor
  · rintro ⟨t, ht, hw⟩
    split at hw
    · next hp =>
        obtain rfl := Option.some.inj hw
        obtain rfl := id_of_task? ht
        exact ⟨ht, hp⟩
    · cases hw
  · rintro ⟨ht, hp⟩
    exact ⟨⟨id, w⟩, ht, by simp [hp]⟩

theorem work?_of_tasks {c' : Cluster} (h : c'.tasks = c.tasks) (id : Nat) :
    c'.work? p id = c.work? p id := by
  rw [work?, work?, task?, task?, h]

theorem work?_setTask (id : Nat) (w : Option Work) (i : Nat) :
    (c.setTask id w).work? p i =
      if i = id then w.filter fun w => w.party = p else c.work? p i := by
  rw [work?, task?_setTask]
  split
  · cases w with
    | none => rfl
    | some w => by_cases hw : w.party = p <;> simp [hw, Option.filter]
  · rfl

theorem work?_spawn (h : c.Tidy) (w : Work) (i : Nat) :
    (c.spawn w).1.work? p i =
      if i = c.nextTask then (if w.party = p then some w else none) else c.work? p i := by
  rw [work?, task?_spawn h]
  split <;> rfl

/-- A party with a member sees a scene. -/
theorem HasMember.shows (h : c.HasMember p) : ∃ σ, c.Shows p σ := by
  obtain ⟨l, hl, hs⟩ := h
  exact ⟨⟨c.now, l, c.store l.store, c.work? p, c.nextTask⟩, hl, hs, rfl, rfl, fun _ => rfl, rfl⟩

/-! ### Parts of a scene -/

namespace Shows

theorem member? (h : c.Shows p σ) : c.member? p = some σ.member := by
  rw [Cluster.member?, h.leased]
  rfl

theorem isCancelled (h : c.Shows p σ) : c.isCancelled p = σ.member.isCancelled := by
  rw [Cluster.isCancelled, h.member?]

theorem party? (h : c.Shows p σ) : ∃ b, c.party? p = some ⟨b, .leased σ.leased⟩ := by
  have hl := h.leased
  rw [leased?] at hl
  split at hl
  · next b l hp => exact ⟨b, Option.some.inj hl ▸ hp⟩
  · cases hl

theorem directory (h : c.Shows p σ) : c.directory p = σ.member.directory := by
  obtain ⟨b, hp⟩ := h.party?
  rw [Cluster.directory, hp]
  rfl

theorem setStore (h : c.Shows p σ) (s : Store) :
    (c.setStore σ.leased.store s).Shows p (σ.put σ.member s) where
  leased := h.leased
  hosted := by rw [length_stores_setStore]; exact h.hosted
  now := h.now
  store := store_setStore_self h.hosted s
  work := h.work
  nextTask := h.nextTask

theorem setMember (h : c.Shows p σ) (m : Member) : (c.setMember p m).Shows p (σ.put m σ.store) where
  leased := leased?_setMember_self h.leased m
  hosted := by rw [setMember_stores]; exact h.hosted
  now := by rw [setMember_now]; exact h.now
  store := by
    rw [Cluster.store, setMember_stores]
    exact h.store
  work id := by rw [work?_of_tasks (setMember_tasks c p m)]; exact h.work id
  nextTask := by rw [setMember_nextTask]; exact h.nextTask

theorem setBus (h : c.Shows p σ) (q : String) (b : Bus) : (c.setBus q b).Shows p σ where
  leased := by rw [leased?_setBus]; exact h.leased
  hosted := by rw [setBus_stores]; exact h.hosted
  now := by rw [setBus_now]; exact h.now
  store := by rw [Cluster.store, setBus_stores]; exact h.store
  work id := by rw [work?_of_tasks (setBus_tasks c q b)]; exact h.work id
  nextTask := by rw [setBus_nextTask]; exact h.nextTask

theorem setTask (h : c.Shows p σ) (id : Nat) {w : Option Work} (hw : ∀ w' ∈ w, w'.party = p) :
    (c.setTask id w).Shows p (σ.setWork id w) where
  leased := h.leased
  hosted := h.hosted
  now := h.now
  store := h.store
  work i := by
    rw [work?_setTask, Scene.setWork_work, h.work i]
    congr 1
    cases w with
    | none => rfl
    | some w => simp [hw w rfl]
  nextTask := h.nextTask

theorem spawn (h : c.Shows p σ) (ht : c.Tidy) {w : Work} (hw : w.party = p) :
    (c.spawn w).1.Shows p (σ.spawn w) where
  leased := h.leased
  hosted := h.hosted
  now := h.now
  store := h.store
  work i := by
    rw [work?_spawn ht, Scene.spawn_work, if_pos hw, h.work i, h.nextTask]
  nextTask := congrArg (· + 1) h.nextTask

theorem of_alike {d : Cluster} (h : c.Shows p σ) (hd : c.Alike d) : d.Shows p σ where
  leased := (hd.leased? p).trans h.leased
  hosted := by rw [hd.stores]; exact h.hosted
  now := hd.now.trans h.now
  store := (hd.store _).trans h.store
  work id := by rw [work?_of_tasks hd.tasks]; exact h.work id
  nextTask := hd.nextTask.trans h.nextTask

/-- A number is used up for a task that is over at once. -/
theorem skip (h : c.Shows p σ) (outcomes : List (Nat × Except Failure Unit)) :
    { c with outcomes, nextTask := c.nextTask + 1 }.Shows p σ.skip :=
  ⟨h.leased, h.hosted, h.now, h.store, h.work, congrArg (· + 1) h.nextTask⟩

theorem spawn_of_ne (h : c.Shows p σ) (ht : c.Tidy) {w : Work} (hw : w.party ≠ p) :
    (c.spawn w).1.Shows p σ.skip where
  leased := h.leased
  hosted := h.hosted
  now := h.now
  store := h.store
  work i := by
    rw [work?_spawn ht, if_neg hw]
    split
    · next hi =>
        have hnone : c.work? p i = none := by
          rw [work?, ht.task?_eq_none (Nat.le_of_eq hi.symm), Option.bind_none]
        rw [← hnone]
        exact h.work i
    · exact h.work i
  nextTask := congrArg (· + 1) h.nextTask

theorem issue (h : c.Shows p σ) (next : Next) : σ.leased.Issues σ.now next (c.issue p next) := by
  cases next with
  | done r => exact .done r
  | notify point => exact .notify _ point
  | call point =>
      rw [Cluster.issue, h.leased, h.now]
      exact .call point

theorem continueWith (h : c.Shows p σ) (s : Member × Next) :
    (c.continueWith p s).1.Shows p (σ.put s.1 σ.store) ∧ σ.Continues s (c.continueWith p s).2 :=
  ⟨h.setMember s.1, (h.setMember s.1).issue s.2⟩

end Shows

/-! ### The steps of the member's own tasks -/

theorem Shows.stepFlight (h : c.Shows p σ) {f : Flight} {r : Cluster × (Wait ⊕ Except Failure Unit)}
    (hr : c.stepFlight p f = some r) :
    ∃ m s, r.1.Shows p (σ.put m s) ∧ σ.Advances (.call f) m s r.2 := by
  have hanswer (reply : Except Failure f.point.Reply) (hy : f.Yields σ.now reply) :
      (c.answer p σ.member f.point reply).1.Shows p
          (σ.put (σ.member.resume σ.now f.point reply).1 σ.store) ∧
        σ.Advances (.call f) (σ.member.resume σ.now f.point reply).1 σ.store
          (c.answer p σ.member f.point reply).2 := by
    obtain ⟨hs, hc⟩ := h.continueWith (σ.member.resume σ.now f.point reply)
    rw [answer, h.now]
    exact ⟨hs, .resumes hy hc⟩
  rw [Cluster.stepFlight, h.leased] at hr
  obtain ⟨l, hl, hr⟩ := Option.bind_eq_some_iff.1 hr
  obtain rfl := Option.some.inj hl
  split at hr
  · next hreply =>
      split at hr
      · next hdue =>
          obtain rfl := Option.some.inj hr
          rw [h.store]
          exact ⟨_, _, h.setStore _, .acts hreply (h.now ▸ hdue.1) hdue.2⟩
      · split at hr
        · next hn hd =>
            obtain rfl := Option.some.inj hr
            rw [h.now] at hn hd
            have hlate : f.deadline < f.actsAt := by omega
            exact ⟨_, _, hanswer _ (.unsent hreply hlate hd)⟩
        · cases hr
  · next reply hreply =>
      split at hr
      · next hdue =>
          obtain rfl := Option.some.inj hr
          exact ⟨_, _, hanswer _ (.answer hreply (h.now ▸ hdue.1) hdue.2)⟩
      · split at hr
        · next hn hd =>
            obtain rfl := Option.some.inj hr
            rw [h.now] at hn hd
            have hlate : f.deadline < f.answersAt := by omega
            exact ⟨_, _, hanswer _ (.unheard hreply hlate hd)⟩
        · cases hr

theorem Shows.stepWait (h : c.Shows p σ) {w : Wait} {r : Cluster × (Wait ⊕ Except Failure Unit)}
    (hr : c.stepWait p w = some r) : ∃ m s, r.1.Shows p (σ.put m s) ∧ σ.Advances w m s r.2 := by
  cases w with
  | call f => exact h.stepFlight hr
  | notice n point =>
      rw [Cluster.stepWait] at hr
      split at hr
      · next b n' _ =>
          split at hr
          · cases hr
          · obtain rfl := Option.some.inj hr
            exact ⟨_, _, h.setBus p b, .held n'⟩
      · next b _ =>
          have hb := h.setBus p b
          dsimp only at hr
          rw [hb.member?] at hr
          obtain rfl := Option.some.inj hr
          obtain ⟨hs, hc⟩ := hb.continueWith (σ.member.notified point)
          exact ⟨_, _, hs, .told hc⟩

theorem isResting_afterTick (c : Cluster) (p : String) (r : Except Failure Unit) :
    (c.afterTick p r).IsResting := by
  cases r <;> trivial

theorem Shows.stepKeepAlive (h : c.Shows p σ) {loop : KeepAliveLoop} {r : Cluster × Option Work}
    (hr : c.stepKeepAlive p loop = some r) :
    ∃ m s, r.1.Shows p (σ.put m s) ∧ σ.Goes p (.keepAlive p loop) m s r.2 := by
  cases loop with
  | sleeping t =>
      rw [Cluster.stepKeepAlive, h.isCancelled] at hr
      split at hr
      · next hc =>
          obtain rfl := Option.some.inj hr
          exact ⟨_, _, h, .keepAliveEnds hc trivial⟩
      · next hc =>
          have hc : σ.member.isCancelled = false := Bool.eq_false_iff.2 hc
          split at hr
          · next hdue =>
              rw [h.member?] at hr
              obtain ⟨m, hm, hr⟩ := Option.bind_eq_some_iff.1 hr
              obtain rfl := Option.some.inj hm
              rw [h.now] at hr
              obtain rfl := Option.some.inj hr
              have hi := h.issue (σ.member.tick σ.now)
              refine ⟨_, _, h, ?_⟩
              change σ.Goes p _ _ _ (c.afterTickStep p (c.issue p (σ.member.tick σ.now)))
              cases hn : c.issue p (σ.member.tick σ.now) with
              | inl w => exact .ticks hc (h.now ▸ hdue) (hn ▸ hi)
              | inr res => exact .rests hc trivial (isResting_afterTick c p res)
          · cases hr
  | ticking w =>
      obtain ⟨s, hs, hr⟩ := Option.bind_eq_some_iff.1 hr
      obtain rfl := Option.some.inj hr
      obtain ⟨m, st, hshows, ha⟩ := h.stepWait hs
      obtain ⟨c', next⟩ := s
      refine ⟨m, st, hshows, ?_⟩
      dsimp only at ha ⊢
      cases next with
      | inl w' => exact .ticking ha
      | inr res => exact .tickEnds ha (isResting_afterTick c' p res)
  | backingOff t =>
      rw [Cluster.stepKeepAlive, h.isCancelled] at hr
      split at hr
      · next hc =>
          obtain rfl := Option.some.inj hr
          exact ⟨_, _, h, .keepAliveEnds hc trivial⟩
      · next hc =>
          split at hr
          · obtain rfl := Option.some.inj hr
            exact ⟨_, _, h, .rests (by simpa using hc) trivial trivial⟩
          · cases hr

theorem Shows.applyBatch (h : c.Shows p σ) (feed : Feed) (injected : List Injection)
    (events : List Event) :
    ∃ r, (c.applyBatch p feed injected events).1.Shows p
          (σ.put (σ.member.applyEvents events).1 σ.store) ∧
        σ.Continues (σ.member.applyEvents events) r ∧
        (c.applyBatch p feed injected events).2 = some (.watch p (.after feed injected r)) := by
  obtain ⟨hs, hc⟩ := h.continueWith (σ.member.applyEvents events)
  refine ⟨_, ?_, hc, ?_⟩
  · rw [Cluster.applyBatch, h.member?]
    dsimp only
    split
    · next hw => exact (Prod.mk.inj hw).1 ▸ hs
    · next hw => exact (Prod.mk.inj hw).1 ▸ hs
  · rw [Cluster.applyBatch, h.member?]
    dsimp only
    split
    · next hw => rw [hw]; rfl
    · next hw => rw [hw]; rfl

theorem Shows.watchBroke (h : c.Shows p σ) :
    ∃ t, (c.watchBroke p).1.Shows p (σ.put σ.member.watchBroken σ.store) ∧
      (c.watchBroke p).2 = some (.watch p (.backingOff t)) := by
  rw [Cluster.watchBroke, h.member?]
  exact ⟨_, h.setMember _, rfl⟩

theorem Shows.subscribing (h : c.Shows p σ) : ∃ a b, c.subscribing p = .subscribing a b none := by
  rw [Cluster.subscribing, h.leased]
  exact ⟨_, _, rfl⟩

theorem Shows.stepWatch (h : c.Shows p σ) {loop : WatchLoop} {r : Cluster × Option Work}
    (hr : c.stepWatch p loop = some r) :
    ∃ m s, r.1.Shows p (σ.put m s) ∧ σ.Goes p (.watch p loop) m s r.2 := by
  cases loop with
  | subscribing actsAt answersAt reply =>
      rw [Cluster.stepWatch, h.leased] at hr
      obtain ⟨l, hl, hr⟩ := Option.bind_eq_some_iff.1 hr
      obtain rfl := Option.some.inj hl
      split at hr
      · next hc =>
          obtain rfl := Option.some.inj hr
          exact ⟨_, _, h, .watchEnds hc trivial⟩
      · next hc =>
          have hc : σ.member.isCancelled = false := Bool.eq_false_iff.2 hc
          split at hr
          · split at hr
            · next hdue =>
                obtain rfl := Option.some.inj hr
                rw [h.store]
                exact ⟨_, _, h, .subscribes hc (h.now ▸ hdue)⟩
            · cases hr
          · split at hr
            · split at hr
              · obtain rfl := Option.some.inj hr
                exact ⟨_, _, h, .streams hc⟩
              · obtain rfl := Option.some.inj hr
                obtain ⟨t, hs, ht⟩ := h.watchBroke
                rw [ht]
                exact ⟨_, _, hs, .refused hc⟩
            · cases hr
  | streaming feed injected =>
      rw [Cluster.stepWatch, h.leased] at hr
      obtain ⟨l, hl, hr⟩ := Option.bind_eq_some_iff.1 hr
      obtain rfl := Option.some.inj hl
      split at hr
      · next hc =>
          obtain rfl := Option.some.inj hr
          exact ⟨_, _, h, .watchEnds hc trivial⟩
      · next hc =>
          have hc : σ.member.isCancelled = false := Bool.eq_false_iff.2 hc
          -- the stream breaks by its own failure and by one that was put into it
          have hbroke : ∃ m s, (c.watchBroke p).1.Shows p (σ.put m s) ∧
              σ.Goes p (.watch p (.streaming feed injected)) m s (c.watchBroke p).2 := by
            obtain ⟨t, hs, ht⟩ := h.watchBroke
            rw [ht]
            exact ⟨_, _, hs, .breaks hc⟩
          rw [h.store] at hr
          split at hr
          · next read e hnext =>
              obtain rfl := Option.some.inj hr
              obtain ⟨res, hs, hcont, hw⟩ := h.applyBatch read injected [e]
              rw [hw]
              exact ⟨_, _, hs, .hands hc hnext hcont⟩
          · obtain rfl := Option.some.inj hr
            exact hbroke
          · next read hnext =>
              split at hr
              · split at hr
                · cases hr
                · obtain rfl := Option.some.inj hr
                  exact ⟨_, _, h, .reads hc hnext⟩
              · next events rest hr =>
                  obtain rfl := Option.some.inj hr
                  obtain ⟨res, hs, hcont, hw⟩ := h.applyBatch read rest events
                  rw [hw]
                  exact ⟨_, _, hs, .handsBatch hc hnext hcont⟩
              · obtain rfl := Option.some.inj hr
                exact hbroke
  | applying feed injected w =>
      obtain ⟨s, hs, hr⟩ := Option.bind_eq_some_iff.1 hr
      obtain ⟨m, st, hshows, ha⟩ := h.stepWait hs
      split at hr
      · obtain rfl := Option.some.inj hr
        exact ⟨_, _, hshows, .applying ha⟩
      · obtain rfl := Option.some.inj hr
        exact ⟨_, _, hshows, .applying ha⟩
  | backingOff t =>
      rw [Cluster.stepWatch, h.isCancelled] at hr
      split at hr
      · next hc =>
          obtain rfl := Option.some.inj hr
          exact ⟨_, _, h, .watchEnds hc trivial⟩
      · next hc =>
          split at hr
          · next hdue =>
              obtain rfl := Option.some.inj hr
              obtain ⟨a, b, hsub⟩ := h.subscribing
              rw [hsub]
              exact ⟨_, _, h, .resubscribes (by simpa using hc) (h.now ▸ hdue)⟩
          · cases hr

theorem Shows.stepFollow (h : c.Shows p σ) {sink : Nat} {who : Follower}
    {r : Cluster × Option Work} (hr : c.stepFollow p sink who = some r) :
    ∃ m s, r.1.Shows p (σ.put m s) ∧ σ.Goes p (.follow p sink who) m s r.2 := by
  rw [Cluster.stepFollow] at hr
  split at hr
  · obtain rfl := Option.some.inj hr
    exact ⟨_, _, h, .follows (by simp)⟩
  · split at hr
    · obtain rfl := Option.some.inj hr
      exact ⟨_, _, (h.setBus p _).of_alike (alike_refresh _ who), .follows (by simp)⟩
    · cases hr

/-! ### Tasks without a step -/

theorem Shows.due_of_stepFlight (h : c.Shows p σ) {f : Flight} (hr : c.stepFlight p f = none) :
    ∀ t ∈ (Wait.call f).dueAt, σ.now < t := by
  rw [Cluster.stepFlight, h.leased] at hr
  simp only [Option.bind_eq_bind, Option.bind_some] at hr
  intro t ht
  rw [Wait.dueAt] at ht
  split at hr
  · next hreply =>
      rw [hreply] at ht
      split at hr
      · cases hr
      · next hact =>
          split at hr
          · cases hr
          · next hgiveUp =>
              rw [h.now] at hact hgiveUp
              simp only [List.mem_cons, List.not_mem_nil, or_false] at ht
              omega
  · next reply hreply =>
      rw [hreply] at ht
      split at hr
      · cases hr
      · next hanswer =>
          split at hr
          · cases hr
          · next hgiveUp =>
              rw [h.now] at hanswer hgiveUp
              simp only [List.mem_cons, List.not_mem_nil, or_false] at ht
              omega

theorem Shows.due_of_stepWait (h : c.Shows p σ) {w : Wait} (hr : c.stepWait p w = none) :
    ∀ t ∈ w.dueAt, σ.now < t := by
  cases w with
  | call f => exact h.due_of_stepFlight hr
  | notice n point => rintro t ⟨⟩

theorem Shows.idles_of_stepKeepAlive (h : c.Shows p σ) {loop : KeepAliveLoop}
    (hr : c.stepKeepAlive p loop = none) : σ.Idles p (.keepAlive p loop) := by
  have hstream {q : String} : ∀ feed injected, Work.keepAlive p loop =
      .watch q (.streaming feed injected) → injected = [] ∧ feed.next σ.store = (feed, none) :=
    (by rintro _ _ ⟨⟩)
  cases loop with
  | sleeping t =>
      rw [Cluster.stepKeepAlive, h.isCancelled] at hr
      split at hr
      · cases hr
      · next hc =>
          split at hr
          · rw [h.member?] at hr
            cases hr
          · next hlate =>
              rw [h.now] at hlate
              refine ⟨fun u hu => ?_, hstream, fun hn => absurd hn hc⟩
              obtain rfl := List.mem_singleton.1 hu
              omega
  | ticking w =>
      have hw : c.stepWait p w = none := by
        cases hs : c.stepWait p w with
        | none => rfl
        | some s =>
            rw [Cluster.stepKeepAlive, hs] at hr
            cases hr
      exact ⟨h.due_of_stepWait hw, hstream, fun _ => .inl (by simp [Work.wait?])⟩
  | backingOff t =>
      rw [Cluster.stepKeepAlive, h.isCancelled] at hr
      split at hr
      · cases hr
      · next hc =>
          split at hr
          · cases hr
          · next hlate =>
              rw [h.now] at hlate
              refine ⟨fun u hu => ?_, hstream, fun hn => absurd hn hc⟩
              obtain rfl := List.mem_singleton.1 hu
              omega

theorem Shows.idles_of_stepWatch (h : c.Shows p σ) {loop : WatchLoop}
    (hr : c.stepWatch p loop = none) : σ.Idles p (.watch p loop) := by
  cases loop with
  | subscribing actsAt answersAt reply =>
      rw [Cluster.stepWatch, h.leased] at hr
      change (if σ.member.isCancelled then _ else _) = none at hr
      split at hr
      · cases hr
      · next hc =>
          refine ⟨fun u hu => ?_, (by rintro _ _ ⟨⟩), fun hn => absurd hn hc⟩
          cases reply with
          | none =>
              obtain rfl := List.mem_singleton.1 hu
              dsimp only at hr
              split at hr
              · cases hr
              · next hlate =>
                  rw [h.now] at hlate
                  omega
          | some reply =>
              obtain rfl := List.mem_singleton.1 hu
              dsimp only at hr
              split at hr
              · split at hr <;> cases hr
              · next hlate =>
                  rw [h.now] at hlate
                  omega
  | streaming feed injected =>
      rw [Cluster.stepWatch, h.leased] at hr
      change (if σ.member.isCancelled then _ else _) = none at hr
      split at hr
      · cases hr
      · next hc =>
          refine ⟨(by rintro u ⟨⟩), ?_, fun hn => absurd hn hc⟩
          intro feed' injected' he
          cases he
          rw [h.store] at hr
          split at hr
          · cases hr
          · cases hr
          · next read hnext =>
              split at hr
              · split at hr
                · next hread => exact ⟨rfl, by rw [hnext, hread]⟩
                · cases hr
              · cases hr
              · cases hr
  | applying feed injected w =>
      have hw : c.stepWait p w = none := by
        cases hs : c.stepWait p w with
        | none => rfl
        | some s =>
            obtain ⟨d, r⟩ := s
            rw [Cluster.stepWatch, hs] at hr
            cases r <;> cases hr
      exact ⟨h.due_of_stepWait hw, (by rintro _ _ ⟨⟩), fun _ => .inl (by simp [Work.wait?])⟩
  | backingOff t =>
      rw [Cluster.stepWatch, h.isCancelled] at hr
      split at hr
      · cases hr
      · next hc =>
          split at hr
          · cases hr
          · next hlate =>
              rw [h.now] at hlate
              refine ⟨fun u hu => ?_, (by rintro _ _ ⟨⟩), fun hn => absurd hn hc⟩
              obtain rfl := List.mem_singleton.1 hu
              omega

/-- A task of the member that has no step waits for something that is due later. -/
theorem Shows.idles_of_stepTask {t : Task} (h : c.Shows t.work.party σ)
    (hr : c.stepTask t = none) : σ.Idles t.work.party t.work := by
  obtain ⟨id, work⟩ := t
  cases work with
  | routine q w =>
      have hw : c.stepWait q w = none := by
        cases hs : c.stepWait q w with
        | none => rfl
        | some s =>
            obtain ⟨d, r⟩ := s
            rw [stepTask] at hr
            dsimp only at hr
            rw [hs] at hr
            cases r <;> cases hr
      exact ⟨h.due_of_stepWait hw, (by rintro _ _ ⟨⟩), fun _ => .inl (by simp [Work.wait?])⟩
  | keepAlive q loop => exact h.idles_of_stepKeepAlive (Option.map_eq_none_iff.1 hr)
  | watch q loop => exact h.idles_of_stepWatch (Option.map_eq_none_iff.1 hr)
  | follow q sink who =>
      exact ⟨(by rintro _ ⟨⟩), (by rintro _ _ ⟨⟩), fun _ => .inr ⟨sink, who, rfl⟩⟩

/-! ### Whose task it is -/

theorem party_of_watchBroke (c : Cluster) (q : String) : ∀ w ∈ (c.watchBroke q).2, w.party = q := by
  intro w hw
  rw [Cluster.watchBroke] at hw
  split at hw
  · obtain rfl := Option.some.inj hw
    rfl
  · cases hw

theorem party_of_applyBatch (c : Cluster) (q : String) (feed : Feed) (injected : List Injection)
    (events : List Event) : ∀ w ∈ (c.applyBatch q feed injected events).2, w.party = q := by
  intro w hw
  rw [Cluster.applyBatch] at hw
  split at hw
  · split at hw <;> (obtain rfl := Option.some.inj hw; rfl)
  · cases hw

theorem party_of_stepWatch {loop : WatchLoop} {r : Cluster × Option Work}
    (hr : c.stepWatch q loop = some r) : ∀ w ∈ r.2, w.party = q := by
  obtain ⟨-, hw⟩ | rfl | ⟨_, _, read, rest, events, -, rfl⟩ | ⟨_, _, w, s, -, -, rfl⟩ :=
    stepWatch_eq_some hr
  · exact hw
  · exact party_of_watchBroke c q
  · exact party_of_applyBatch c q read rest events
  · intro w' hw'
    obtain rfl := Option.some.inj hw'
    rfl

theorem party_of_stepFollow {sink : Nat} {who : Follower} {r : Cluster × Option Work}
    (hr : c.stepFollow q sink who = some r) : ∀ w ∈ r.2, w.party = q := by
  rw [Cluster.stepFollow] at hr
  split at hr
  · obtain rfl := Option.some.inj hr
    rintro w ⟨⟩
  · split at hr
    · obtain rfl := Option.some.inj hr
      intro w hw
      obtain rfl := Option.some.inj hw
      rfl
    · cases hr

/-! ### Acts -/

/-- The store grows and the rest of a scene stays when something is done that is not for the
party. -/
theorem Shows.of_spares {d : Cluster} (h : c.Shows p σ) (hd : c.Spares p d) :
    ∃ σ', d.Shows p σ' ∧ σ.Spares σ' := by
  refine ⟨{ σ with store := d.store σ.leased.store }, ?_, ?_⟩
  · constructor
    · exact hd.leased.trans h.leased
    · rw [hd.length]; exact h.hosted
    · exact hd.now.trans h.now
    · rfl
    · intro id
      rw [work?_of_tasks hd.tasks]
      exact h.work id
    · exact hd.nextTask.trans h.nextTask
  · constructor
    · exact Nat.le_refl _
    · rfl
    · rw [← h.store]; exact hd.grows _
    · rfl
    · exact Nat.le_refl _

theorem Shows.setTask_of_ne (h : c.Shows p σ) {id : Nat} (hid : σ.work id = none)
    {w : Option Work} (hw : ∀ w' ∈ w, w'.party ≠ p) : (c.setTask id w).Shows p σ where
  leased := h.leased
  hosted := h.hosted
  now := h.now
  store := h.store
  work i := by
    rw [work?_setTask, h.work i]
    split
    · next hi =>
        rw [hi, hid]
        cases w with
        | none => rfl
        | some w => simp [Option.filter, hw w rfl]
    · rfl
  nextTask := h.nextTask

/-- A step of a task goes on with the work of one party, and this party alone notices more than
its store growing. -/
theorem stepTask_eq_some {t : Task} {c' : Cluster} (h : c.stepTask t = some c') :
    ∃ d w, c' = setTask d t.id w ∧ (∀ w' ∈ w, w'.party = t.work.party) ∧
      (∀ p, p ≠ t.work.party → c.Spares p d) ∧
      ∀ σ, c.Shows t.work.party σ →
        ∃ m s, d.Shows t.work.party (σ.put m s) ∧ σ.Goes t.work.party t.work m s w := by
  obtain ⟨id, work⟩ := t
  cases work with
  | routine q w =>
      rw [stepTask] at h
      dsimp only at h
      split at h
      · cases h
      · next d w' hs =>
          obtain rfl := Option.some.inj h
          refine ⟨d, some (.routine q w'), rfl, ?_, fun p hp => spares_stepWait hp hs, ?_⟩
          · intro w hw
            obtain rfl := Option.some.inj hw
            rfl
          · intro σ hσ
            obtain ⟨m, s, hd, ha⟩ := hσ.stepWait hs
            exact ⟨m, s, hd, .routine ha⟩
      · next d r hs =>
          obtain rfl := Option.some.inj h
          have hnoted : d.Alike { d with outcomes := (id, r) :: d.outcomes } :=
            ⟨rfl, rfl, rfl, rfl, rfl⟩
          refine ⟨{ d with outcomes := (id, r) :: d.outcomes }, none, rfl, by simp, ?_, ?_⟩
          · exact fun p hp => (spares_stepWait hp hs).trans (hnoted.spares p)
          · intro σ hσ
            obtain ⟨m, s, hd, ha⟩ := hσ.stepWait hs
            exact ⟨m, s, hd.of_alike hnoted, .routineEnds ha⟩
  | keepAlive q loop =>
      obtain ⟨r, hr, rfl⟩ := Option.map_eq_some_iff.1 h
      exact ⟨r.1, r.2, rfl, (stepKeepAlive_eq_some hr).1, fun p hp => spares_stepKeepAlive hp hr,
        fun σ hσ => hσ.stepKeepAlive hr⟩
  | watch q loop =>
      obtain ⟨r, hr, rfl⟩ := Option.map_eq_some_iff.1 h
      exact ⟨r.1, r.2, rfl, party_of_stepWatch hr, fun p hp => spares_stepWatch hp hr,
        fun σ hσ => hσ.stepWatch hr⟩
  | follow q sink who =>
      obtain ⟨r, hr, rfl⟩ := Option.map_eq_some_iff.1 h
      exact ⟨r.1, r.2, rfl, party_of_stepFollow hr, fun p _ => spares_stepFollow hr,
        fun σ hσ => hσ.stepFollow hr⟩

theorem exists_ne_party (q : String) : ∃ p : String, p ≠ q := by
  by_cases h : q = ""
  · exact ⟨"other", by simp [h]⟩
  · exact ⟨"", Ne.symm h⟩

theorem stepTask_tidy (h : c.Tidy) {t : Task} (ht : t ∈ c.tasks) {c' : Cluster}
    (hs : c.stepTask t = some c') : c'.Tidy := by
  obtain ⟨d, w, rfl, -, hd, -⟩ := stepTask_eq_some hs
  obtain ⟨q, hq⟩ := exists_ne_party t.work.party
  have hspares := hd q hq
  refine (h.of_eq hspares.tasks hspares.nextTask).setTask ?_ w
  rw [hspares.nextTask]
  exact h t ht

theorem startLoops_tidy (h : c.Tidy) (q : String) : (c.startLoops q).Tidy := by
  rw [startLoops]
  split
  · exact h
  · split
    · exact h
    · exact ((h.of_eq (setMember_tasks c q _) (setMember_nextTask c q _)).spawn _).spawn _

theorem start_tidy (h : c.Tidy) (q : String) (r : Routine) : (c.start q r).Tidy := by
  rw [start]
  split
  · exact h
  · next m _ =>
      have hset : (c.setMember q (m.start c.now r).1).Tidy :=
        h.of_eq (setMember_tasks c q _) (setMember_nextTask c q _)
      split
      · next hc => exact ((Prod.mk.inj hc).1 ▸ hset).spawn _
      · next hc =>
          have hd := (Prod.mk.inj hc).1 ▸ hset
          exact fun t ht => Nat.lt_succ_of_lt (hd t ht)

theorem Tidy.act (h : c.Tidy) (a : Act) : (c.act a).Tidy := by
  cases a with
  | step id =>
      rw [Cluster.act]
      split
      · next t ht =>
          cases hs : c.stepTask t with
          | none => exact h
          | some c' => exact stepTask_tidy h (List.mem_of_find?_eq_some ht) hs
      · exact h
  | pass ms => exact h
  | use i op => exact h
  | slow q k d =>
      rw [Cluster.act, setDelay]
      split
      · exact h.of_eq (setLeased_tasks c q _) (setLeased_nextTask c q _)
      · exact h
  | join q P => exact h
  | start q r => exact start_tidy h q r
  | register q =>
      rw [Cluster.act]
      split
      · exact h
      · exact startLoops_tidy h q
  | drop id =>
      intro t ht
      rcases List.mem_append.1 ht with ht | ht
      · exact h t (List.mem_filter.1 ht).1
      · cases ht
  | feedIn q what =>
      intro t ht
      obtain ⟨u, hu, rfl⟩ := List.mem_map.1 ht
      have hid : u.id < c.nextTask := h u hu
      split
      · split <;> exact hid
      · exact hid
  | useBus q op => exact h.of_eq (setBus_tasks c q _) (setBus_nextTask c q _)

theorem Shows.step (h : c.Shows p σ) (id : Nat) :
    ∃ σ', (c.act (.step id)).Shows p σ' ∧ σ.Step p (.step id) σ' := by
  have hothers (hnone : σ.work id = none) : ∀ i, Act.step id = .step i → σ.work i = none := by
    intro i hi
    cases hi
    exact hnone
  rw [Cluster.act]
  split
  · next t ht =>
      obtain rfl := id_of_task? ht
      -- a task of the party moves the scene, one of another party at most the store
      by_cases hp : p = t.work.party
      · subst hp
        have hwork : σ.work t.id = some t.work := by
          rw [← h.work]
          exact work?_eq_some_iff.2 ⟨ht, rfl⟩
        cases hs : c.stepTask t with
        | none => exact ⟨σ, h, .waits hwork (h.idles_of_stepTask hs)⟩
        | some c' =>
            obtain ⟨d, w, rfl, hw, -, hgoes⟩ := stepTask_eq_some hs
            obtain ⟨m, s, hd, hg⟩ := hgoes σ h
            exact ⟨_, hd.setTask t.id hw, .steps hwork hg⟩
      · have hnone : σ.work t.id = none := by
          rw [← h.work, work?, ht, Option.bind_some, if_neg (Ne.symm hp)]
        cases hs : c.stepTask t with
        | none => exact ⟨σ, h, .elsewhere (.refl σ) (hothers hnone)⟩
        | some c' =>
            obtain ⟨d, w, rfl, hw, hspares, -⟩ := stepTask_eq_some hs
            obtain ⟨σ', hd, hσ⟩ := h.of_spares (hspares p hp)
            have hwork : σ'.work t.id = none := by rw [hσ.work, hnone]
            have hne : ∀ w' ∈ w, w'.party ≠ p := fun w' hw' he => hp (he ▸ hw w' hw')
            exact ⟨σ', hd.setTask_of_ne hwork hne, .elsewhere hσ (hothers hnone)⟩
  · next ht =>
      have hnone : σ.work id = none := by rw [← h.work, work?, ht, Option.bind_none]
      exact ⟨σ, h, .elsewhere (.refl σ) (hothers hnone)⟩

theorem Shows.start_self (h : c.Shows p σ) (ht : c.Tidy) (r : Routine) :
    ∃ σ', (c.start p r).Shows p σ' ∧ σ.Step p (.start p r) σ' := by
  obtain ⟨hs, hc⟩ := h.continueWith (σ.member.start σ.now r)
  rw [start, h.member?]
  dsimp only
  rw [h.now]
  split
  · next d w hd =>
      rw [hd] at hs hc
      have htidy : d.Tidy := by
        obtain rfl := (Prod.mk.inj hd).1
        exact ht.of_eq (setMember_tasks c p _) (setMember_nextTask c p _)
      exact ⟨_, hs.spawn htidy rfl, .starts hc⟩
  · next d res hd =>
      rw [hd] at hs hc
      exact ⟨_, hs.skip _, .startsAndEnds hc⟩

theorem Shows.start_of_ne (h : c.Shows p σ) (ht : c.Tidy) (hq : p ≠ q) (r : Routine) :
    ∃ σ', (c.start q r).Shows p σ' ∧ σ.Spares σ' := by
  rw [start]
  split
  · exact ⟨σ, h, .refl σ⟩
  · next m _ =>
      obtain ⟨σ', hd, hσ⟩ := h.of_spares (spares_setMember hq c (m.start c.now r).1)
      have htidy : (c.setMember q (m.start c.now r).1).Tidy :=
        ht.of_eq (setMember_tasks c q _) (setMember_nextTask c q _)
      split
      · next e w he =>
          obtain rfl := (Prod.mk.inj he).1
          exact ⟨_, hd.spawn_of_ne htidy (Ne.symm hq), hσ.trans (Scene.spares_skip σ')⟩
      · next e res he =>
          obtain rfl := (Prod.mk.inj he).1
          exact ⟨_, hd.skip _, hσ.trans (Scene.spares_skip σ')⟩

/-- The loops of a member start with it. -/
theorem Shows.startLoops_self (h : c.Shows p σ) (ht : c.Tidy)
    (hs : σ.member.isStarted = false) :
    ∃ a b, (c.startLoops p).Shows p
      (((σ.put { σ.member with isStarted := true } σ.store).spawn
        (.keepAlive p (.sleeping (σ.now + σ.member.settings.tick)))).spawn
          (.watch p (.subscribing a b none))) := by
  rw [startLoops, h.member?]
  dsimp only
  rw [hs, if_neg Bool.false_ne_true]
  have hm := h.setMember { σ.member with isStarted := true }
  have htm : (c.setMember p { σ.member with isStarted := true }).Tidy :=
    ht.of_eq (setMember_tasks c p _) (setMember_nextTask c p _)
  generalize c.setMember p { σ.member with isStarted := true } = d at hm htm ⊢
  have hnow : d.now = σ.now := hm.now
  have hk := hm.spawn htm
    (w := .keepAlive p (.sleeping (σ.now + σ.member.settings.tick))) rfl
  rw [hnow]
  obtain ⟨a, b, hsub⟩ := hk.subscribing
  rw [hsub]
  exact ⟨a, b, hk.spawn (htm.spawn _) rfl⟩

theorem Shows.register_self (h : c.Shows p σ) (ht : c.Tidy) :
    ∃ σ', (c.act (.register p)).Shows p σ' ∧ σ.Step p (.register p) σ' := by
  have hstays : σ.Step p (.register p) σ := .elsewhere (.refl σ) (by rintro _ ⟨⟩)
  rw [Cluster.act, h.isCancelled]
  split
  · exact ⟨σ, h, hstays⟩
  · next hc =>
      cases hs : σ.member.isStarted with
      | true =>
          rw [startLoops, h.member?]
          dsimp only
          rw [hs, if_pos rfl]
          exact ⟨σ, h, hstays⟩
      | false =>
          obtain ⟨a, b, hσ⟩ := h.startLoops_self ht hs
          exact ⟨_, hσ, .registers (Bool.eq_false_iff.2 hc) hs⟩

theorem Shows.startLoops_of_ne (h : c.Shows p σ) (ht : c.Tidy) (hq : p ≠ q) :
    ∃ σ', (c.startLoops q).Shows p σ' ∧ σ.Spares σ' := by
  rw [startLoops]
  split
  · exact ⟨σ, h, .refl σ⟩
  · next m _ =>
      split
      · exact ⟨σ, h, .refl σ⟩
      · obtain ⟨σ', hd, hσ⟩ := h.of_spares (spares_setMember hq c { m with isStarted := true })
        have htm : (c.setMember q { m with isStarted := true }).Tidy :=
          ht.of_eq (setMember_tasks c q _) (setMember_nextTask c q _)
        have hk := hd.spawn_of_ne htm
          (w := .keepAlive q (.sleeping
            ((c.setMember q { m with isStarted := true }).now + m.settings.tick))) (Ne.symm hq)
        refine ⟨_, hk.spawn_of_ne (htm.spawn _) (Ne.symm hq), ?_⟩
        exact (hσ.trans (Scene.spares_skip _)).trans (Scene.spares_skip _)

theorem task?_feedIn (c : Cluster) (q : String) (what : Injection) (id : Nat) :
    (c.feedIn q what).task? id = (c.task? id).map fun t =>
      match t.work with
      | .watch r loop => if r = q then ⟨t.id, .watch r ((loop.inject? what).getD loop)⟩ else t
      | _ => t := by
  rw [task?, feedIn, List.find?_map, task?]
  congr 1
  congr 1
  funext t
  obtain ⟨i, w⟩ := t
  cases w with
  | watch r loop => by_cases hr : r = q <;> simp [hr]
  | _ => rfl

theorem Shows.feedIn_self (h : c.Shows p σ) (what : Injection) :
    (c.feedIn p what).Shows p (σ.feedIn what) where
  leased := h.leased
  hosted := h.hosted
  now := h.now
  store := h.store
  work id := by
    have hw := h.work id
    rw [work?, task?_feedIn]
    rw [work?] at hw
    change _ = (σ.work id).map _
    rw [← hw]
    cases c.task? id with
    | none => rfl
    | some t =>
        obtain ⟨i, w⟩ := t
        cases w with
        | watch r loop => by_cases hr : r = p <;> simp [hr, Work.party]
        | routine r _ => by_cases hr : r = p <;> simp [hr, Work.party]
        | keepAlive r _ => by_cases hr : r = p <;> simp [hr, Work.party]
        | follow r _ _ => by_cases hr : r = p <;> simp [hr, Work.party]
  nextTask := h.nextTask

theorem Shows.feedIn_of_ne (h : c.Shows p σ) (hq : p ≠ q) (what : Injection) :
    (c.feedIn q what).Shows p σ where
  leased := h.leased
  hosted := h.hosted
  now := h.now
  store := h.store
  work id := by
    rw [← h.work id, work?, work?, task?_feedIn]
    cases c.task? id with
    | none => rfl
    | some t =>
        obtain ⟨i, w⟩ := t
        cases w with
        | watch r loop => by_cases hr : r = q <;> simp [hr, Work.party, Ne.symm hq]
        | _ => rfl
  nextTask := h.nextTask

/-- Whatever is done in a cluster, short of putting someone else in a party's place, its member
sees one of the steps of its scene. -/
theorem Shows.act (h : c.Shows p σ) (ht : c.Tidy) {a : Act} (ha : ∀ P, a ≠ .join p P) :
    ∃ σ', (c.act a).Shows p σ' ∧ σ.Step p a σ' := by
  have helsewhere {a : Act} {d : Cluster} (hstep : ∀ id, a ≠ .step id)
      (hd : ∃ σ', d.Shows p σ' ∧ σ.Spares σ') : ∃ σ', d.Shows p σ' ∧ σ.Step p a σ' := by
    obtain ⟨σ', hσ', hs⟩ := hd
    exact ⟨σ', hσ', .elsewhere hs fun id hid => absurd hid (hstep id)⟩
  cases a with
  | step id => exact h.step id
  | pass ms =>
      refine helsewhere (by rintro id ⟨⟩) ⟨{ σ with now := σ.now + ms }, ?_, ?_⟩
      · exact ⟨h.leased, h.hosted, congrArg (· + ms) h.now, h.store, h.work, h.nextTask⟩
      · exact ⟨Nat.le_add_right _ _, rfl, .refl _, rfl, Nat.le_refl _⟩
  | use i op =>
      exact helsewhere (by rintro id ⟨⟩)
        (h.of_spares (spares_setStore (Store.grows_run _ op)))
  | slow q k d =>
      by_cases hq : p = q
      · subst hq
        rw [Cluster.act, setDelay, h.leased]
        refine ⟨_, ?_, .slows k d⟩
        constructor
        · exact leased?_setLeased_self h.leased _
        · rw [setLeased_stores]; exact h.hosted
        · rw [setLeased_now]; exact h.now
        · rw [Cluster.store, setLeased_stores]; exact h.store
        · intro id
          rw [work?_of_tasks (setLeased_tasks c p _)]
          exact h.work id
        · rw [setLeased_nextTask]; exact h.nextTask
      · refine helsewhere (by rintro id ⟨⟩) (h.of_spares ?_)
        rw [Cluster.act, setDelay]
        split
        · constructor
          · exact setLeased_now c q _
          · exact setLeased_tasks c q _
          · exact setLeased_nextTask c q _
          · rw [setLeased_stores]
          · exact leased?_setLeased_of_ne hq c _
          · intro i
            rw [Cluster.store, Cluster.store, setLeased_stores]
            exact .refl _
        · exact .refl p c
  | join q P =>
      have hq : p ≠ q := fun he => ha P (he ▸ rfl)
      refine helsewhere (by rintro id ⟨⟩) (h.of_spares ?_)
      exact ⟨rfl, rfl, rfl, rfl, leased?_setParty_of_ne hq c P, fun i => .refl _⟩
  | start q r =>
      by_cases hq : p = q
      · subst hq
        exact h.start_self ht r
      · exact helsewhere (by rintro id ⟨⟩) (h.start_of_ne ht hq r)
  | register q =>
      by_cases hq : p = q
      · subst hq
        exact h.register_self ht
      · refine helsewhere (by rintro id ⟨⟩) ?_
        rw [Cluster.act]
        split
        · exact ⟨σ, h, .refl σ⟩
        · exact h.startLoops_of_ne ht hq
  | drop id => exact ⟨_, h.setTask id (by simp), .drops id⟩
  | feedIn q what =>
      by_cases hq : p = q
      · subst hq
        exact ⟨_, h.feedIn_self what, .feedsIn what⟩
      · exact helsewhere (by rintro id ⟨⟩) ⟨σ, h.feedIn_of_ne hq what, .refl σ⟩
  | useBus q op =>
      exact helsewhere (by rintro id ⟨⟩) ⟨σ, h.setBus q _, .refl σ⟩

end Cluster

end ServiceMesh
