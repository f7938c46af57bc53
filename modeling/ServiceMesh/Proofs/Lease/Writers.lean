import ServiceMesh.Proofs.Lease.Reading
import ServiceMesh.Proofs.Lease.Routine

/-!
The two writers of a snapshot. A round of upkeep swaps in what it has read, or gives the snapshot
up; the loop that watches the store applies events, one at a time and in the order of the log.
-/

namespace ServiceMesh

/-- The records that a call has found, if it is the one for all records. -/
def CallPoint.records? : (p : CallPoint) → Option (Except Failure p.Reply) →
    Option (List (String × List UInt8))
  | scan, some (.ok records) => some records
  | _, _ => none

def Flight.scanned? (f : Flight) (now : Nat) : Option (List (String × List UInt8)) :=
  if f.answersAt ≤ now ∧ f.answersAt ≤ f.deadline then f.point.records? f.reply else none

def Flight.IsSound (f : Flight) : Prop :=
  ∀ records ∈ f.point.records? f.reply, Topology.WellFormedScan records

def WatchLoop.feed? : WatchLoop → Option Feed
  | subscribing _ _ (some (.ok feed)) => some feed
  | streaming feed _ => some feed
  | applying feed _ _ => some feed
  | _ => none

def WatchLoop.injected : WatchLoop → List Injection
  | streaming _ injected => injected
  | applying _ injected _ => injected
  | _ => []

def WatchLoop.position? (loop : WatchLoop) : Option Nat := loop.feed?.map (·.position)

def Work.position? : Work → Option Nat
  | watch _ loop => loop.position?
  | _ => none

/-- The loop follows the nodes of a store, one event at a time, and gets no events from outside. -/
structure WatchLoop.IsSound (s : Store) (loop : WatchLoop) : Prop where
  feed : ∀ f ∈ loop.feed?, f.start = servicePrefix ∧ f.position ≤ s.published.size
  injected : ∀ es, .batch es ∉ loop.injected
  applying : ∀ feed injected x, loop = .applying feed injected x → ∃ n, x = .notice n (.applied [])

/-- The task does not follow the store, and if it runs a routine, that is a round of upkeep. -/
structure Work.IsUpkeep (w : Work) : Prop where
  not_watch : ∀ q loop, w ≠ .watch q loop
  errand : ∀ x ∈ w.wait?, x.errand = .upkeep
  scan : ∀ f, w.wait? = some (.call f) → f.IsSound

theorem WatchLoop.IsSound.mono {s s' : Store} {loop : WatchLoop} (h : loop.IsSound s)
    (hg : s.Grows s') : loop.IsSound s' where
  feed f hf := ⟨(h.feed f hf).1, Nat.le_trans (h.feed f hf).2 hg.size_le⟩
  injected := h.injected
  applying := h.applying

@[simp] theorem WatchLoop.feed?_after (feed : Feed) (injected : List Injection)
    (r : Wait ⊕ Except Failure Unit) : (WatchLoop.after feed injected r).feed? = some feed := by
  cases r <;> rfl

/-- A loop without a feed is sound as long as nothing was put into it. -/
theorem WatchLoop.IsSound.of_feed?_eq_none {s : Store} {loop : WatchLoop} (h : loop.feed? = none) :
    loop.IsSound s where
  feed f hf := by cases h.symm.trans hf
  injected es := by
    cases loop with
    | streaming feed injected => cases h
    | applying feed injected x => cases h
    | _ => exact List.not_mem_nil
  applying feed injected x he := by
    subst he
    cases h

theorem WatchLoop.IsSound.after {s : Store} {feed : Feed} {injected : List Injection}
    {r : Wait ⊕ Except Failure Unit} (hs : feed.start = servicePrefix)
    (hle : feed.position ≤ s.published.size) (hi : ∀ es, .batch es ∉ injected)
    (hr : ∀ x ∈ r.getLeft?, ∃ n, x = .notice n (.applied [])) :
    (WatchLoop.after feed injected r).IsSound s where
  feed f hf := by
    rw [feed?_after] at hf
    obtain rfl := Option.some.inj hf
    exact ⟨hs, hle⟩
  injected es := by cases r <;> exact hi es
  applying feed' injected' x he := by
    cases r with
    | inl y =>
        obtain ⟨-, -, rfl⟩ := WatchLoop.applying.inj he
        exact hr y rfl
    | inr res => cases he

@[simp] theorem CallPoint.records?_none (p : CallPoint) : p.records? none = none := by
  cases p <;> rfl

/-- What is put into the stream waits there. -/
theorem WatchLoop.position?_inject (loop : WatchLoop) (what : Injection) :
    ((loop.inject? what).getD loop).position? = loop.position? := by
  cases loop <;> rfl

theorem WatchLoop.IsSound.inject {s : Store} {loop : WatchLoop} (h : loop.IsSound s)
    {what : Injection} (hwhat : ∀ es, what ≠ .batch es) :
    ((loop.inject? what).getD loop).IsSound s := by
  have hnot (injected : List Injection) (hi : ∀ es, .batch es ∉ injected) (es : List Event) :
      .batch es ∉ injected ++ [what] := by
    rw [List.mem_append, List.mem_singleton]
    exact not_or.2 ⟨hi es, Ne.symm (hwhat es)⟩
  cases loop with
  | streaming feed injected => exact ⟨h.feed, hnot injected h.injected, (by rintro _ _ _ ⟨⟩)⟩
  | applying feed injected x =>
      refine ⟨h.feed, hnot injected h.injected, fun feed' injected' y he => ?_⟩
      obtain ⟨-, -, rfl⟩ := WatchLoop.applying.inj he
      exact h.applying _ _ _ rfl
  | _ => exact h

theorem Store.watch_eq_ok {s : Store} {start : String} {f : Feed} (h : s.watch start = .ok f) :
    f = ⟨start, s.published.size⟩ := by
  rw [watch] at h
  split at h
  · cases h
  · exact (Except.ok.inj h).symm

theorem Flight.IsSound.of_scanned? {f : Flight} (h : f.IsSound) {now : Nat}
    {records : List (String × List UInt8)} (hr : f.scanned? now = some records) :
    Topology.WellFormedScan records := by
  rw [scanned?] at hr
  split at hr
  · exact h records hr
  · cases hr

theorem Flight.scanned?_of_reply_none {f : Flight} (h : f.reply = none) (now : Nat) :
    f.scanned? now = none := by
  rw [scanned?, h, CallPoint.records?_none, ite_self]

/-- Nothing is handed over before it is due. -/
theorem Flight.scanned?_of_lt {f : Flight} {now : Nat} (h : ∀ t ∈ (Wait.call f).dueAt, now < t) :
    f.scanned? now = none := by
  cases hr : f.reply with
  | none => exact scanned?_of_reply_none hr now
  | some r =>
      have hlt : now < f.answersAt := by
        refine h _ ?_
        rw [Wait.dueAt, hr]
        exact List.mem_cons_self
      rw [scanned?, if_neg]
      omega

/-- A round of upkeep that goes on with an answer swaps in what it has read, or at most gives the
snapshot up. -/
theorem Member.resume_upkeep {m : Member} (now : Nat) {p : CallPoint} (he : p.errand = .upkeep)
    (hc : m.isCancelled = false) (reply : Except Failure p.Reply) :
    (∃ records, p.records? (some reply) = some records ∧
        (m.resume now p reply).1 =
          { m with snapshot := some (Topology.ofScan records), lastSync := some now }) ∨
      (p.records? (some reply) = none ∧
        ((m.resume now p reply).1.snapshot = m.snapshot ∨
          (m.resume now p reply).1.snapshot = none) ∧
        (m.resume now p reply).1.lastSync = m.lastSync) := by
  cases p with
  | grant =>
      right
      cases reply with
      | error e => exact ⟨rfl, .inl rfl, rfl⟩
      | ok lease => simp [CallPoint.records?, resume, hc]
  | publish lease =>
      right
      cases reply with
      | error e => exact ⟨rfl, .inl rfl, rfl⟩
      | ok u => simp [CallPoint.records?, resume, hc]
  | withdraw => exact .inr ⟨rfl, .inl rfl, rfl⟩
  | scan =>
      cases reply with
      | error e => exact .inr ⟨rfl, .inl rfl, rfl⟩
      | ok records => exact .inl ⟨records, rfl, by simp [resume, hc]⟩
  | renew lease =>
      right
      cases reply with
      | ok u => simp [CallPoint.records?, resume, hc]
      | error e =>
          refine ⟨rfl, ?_⟩
          simp only [resume, hc, Bool.false_eq_true, if_false, renewalFailed]
          split
          · exact ⟨.inr rfl, rfl⟩
          · exact ⟨.inl rfl, rfl⟩
  | retire => cases he

theorem Flight.Yields.resume_cases {f : Flight} {now : Nat} {reply : Except Failure f.point.Reply}
    (h : f.Yields now reply) (he : f.point.errand = .upkeep) {m : Member}
    (hc : m.isCancelled = false) :
    (∃ records, f.scanned? now = some records ∧
        (m.resume now f.point reply).1 =
          { m with snapshot := some (Topology.ofScan records), lastSync := some now }) ∨
      (f.scanned? now = none ∧
        ((m.resume now f.point reply).1.snapshot = m.snapshot ∨
          (m.resume now f.point reply).1.snapshot = none) ∧
        (m.resume now f.point reply).1.lastSync = m.lastSync) := by
  have hfailed : f.point.records? (some (.error .callTimedOut)) = none := by
    cases f.point <;> rfl
  cases h with
  | answer hr hdue hin =>
      rw [scanned?, if_pos ⟨hdue, hin⟩, hr]
      exact Member.resume_upkeep now he hc reply
  | unsent hr hlate hdue =>
      -- a call that is given up brings no records, whatever the store answers
      rcases Member.resume_upkeep now he hc (.error .callTimedOut) with ⟨_, hs, -⟩ | ⟨-, hm⟩
      · cases hfailed.symm.trans hs
      · exact .inr ⟨scanned?_of_reply_none hr now, hm⟩
  | unheard hr hlate hdue =>
      rcases Member.resume_upkeep now he hc (.error .callTimedOut) with ⟨_, hs, -⟩ | ⟨-, hm⟩
      · cases hfailed.symm.trans hs
      · exact .inr ⟨if_neg (by omega), hm⟩

/-- The effect of one event. -/
theorem Member.applyEvents_singleton (m : Member) (e : Event) :
    (m.applyEvents [e]).1 = { m with snapshot := m.snapshot.map fun t => (t.apply e).1 } ∧
      ((m.applyEvents [e]).2 = .notify (.applied []) ∨ (m.applyEvents [e]).2 = .done (.ok ())) := by
  rw [applyEvents]
  split
  · next hs =>
      refine ⟨?_, .inr rfl⟩
      change m = _
      rw [hs, Option.map_none, ← hs]
  · next t hs =>
      rw [hs, Option.map_some]
      cases hch : (t.apply e).2 with
      | true => exact ⟨by simp [hch], .inl (by simp [hch])⟩
      | false => exact ⟨by simp [hch, applyEvents], .inr (by simp [hch, applyEvents])⟩

namespace Scene

variable {p : String} {σ : Scene}

theorem feedIn_work (σ : Scene) (what : Injection) (i : Nat) :
    (σ.feedIn what).work i = (σ.work i).map fun v =>
      match v with
      | .watch q loop => .watch q ((loop.inject? what).getD loop)
      | v => v := rfl

/-- What a call for all records finds is all of them. -/
theorem records?_perform {c : CallPoint} {m : Member} {s : Store}
    {records : List (String × List UInt8)}
    (h : c.records? (some (c.perform m s).2) = some records) : records = s.nodes := by
  cases c with
  | scan =>
      cases hs : (CallPoint.perform m .scan s).2 with
      | error e =>
          rw [hs] at h
          cases h
      | ok found =>
          rw [hs] at h
          obtain rfl : found = records := Option.some.inj h
          change s.scan servicePrefix = .ok found at hs
          rw [Store.scan] at hs
          split at hs
          · cases hs
          · exact (Except.ok.inj hs).symm
  | _ => cases h

/-- What a round of upkeep waits for next is sound, too. -/
theorem Advances.isSound {x : Wait} {m : Member} {s : Store} {r : Wait ⊕ Except Failure Unit}
    (h : σ.Advances x m s r) (hscan : Topology.WellFormedScan σ.store.nodes) :
    (∀ f, x = .call f → f.IsSound) → ∀ f, r.getLeft? = some (.call f) → f.IsSound := by
  intro hx f hf
  cases h with
  | acts hr hdue hin =>
      cases hf
      intro records hrecords
      rw [records?_perform hrecords]
      exact hscan
  | resumes hy hr =>
      intro records hrecords
      rw [hr.reply_eq_none hf, CallPoint.records?_none] at hrecords
      cases hrecords
  | held n' => cases hf
  | told hr =>
      intro records hrecords
      rw [hr.reply_eq_none hf, CallPoint.records?_none] at hrecords
      cases hrecords

/-- What a step of a round of upkeep does to the member. -/
theorem Advances.upkeep_cases {x : Wait} {m : Member} {s : Store} {r : Wait ⊕ Except Failure Unit}
    (h : σ.Advances x m s r) (hx : x.errand = .upkeep) (hc : σ.member.isCancelled = false) :
    (∃ f records, x = .call f ∧ f.scanned? σ.now = some records ∧ s = σ.store ∧
        m.snapshot = some (Topology.ofScan records)) ∨
      ((∀ f, x = .call f → f.scanned? σ.now = none) ∧ σ.store.Grows s ∧
        (m.snapshot = σ.member.snapshot ∨ m.snapshot = none) ∧
        m.lastSync = σ.member.lastSync) := by
  cases h with
  | @acts f hr hdue hin =>
      refine .inr ⟨?_, CallPoint.grows_perform _ _ _, .inl rfl, rfl⟩
      intro g hg
      cases hg
      exact Flight.scanned?_of_reply_none hr σ.now
  | @resumes f reply _ hy hr =>
      rcases hy.resume_cases hx hc with ⟨records, hrec, hm⟩ | ⟨hnone, hsnap, hsync⟩
      · exact .inl ⟨f, records, rfl, hrec, rfl, by rw [hm]⟩
      · refine .inr ⟨?_, .refl _, hsnap, hsync⟩
        intro g hg
        cases hg
        exact hnone
  | held n' => exact .inr ⟨(by rintro f ⟨⟩), .refl _, .inl rfl, rfl⟩
  | @told n point _ hr =>
      cases point with
      | synced => exact .inr ⟨(by rintro f ⟨⟩), .refl _, .inl rfl, rfl⟩
      | _ => cases hx

/-- A task that does not follow the store goes on as one that does not. -/
theorem Goes.isUpkeep {work : Work} {work' : Option Work} {m : Member} {s : Store}
    (h : σ.Goes p work m s work') (hu : work.IsUpkeep)
    (hscan : Topology.WellFormedScan σ.store.nodes) : ∀ v ∈ work', v.IsUpkeep := by
  intro v hv
  have hnot := h.not_watch hu.not_watch v hv
  obtain rfl := Option.mem_def.1 hv
  -- in the middle of a round the errand stays; between two rounds only a new one begins
  cases hx : work.wait? with
  | some x =>
      obtain ⟨r, hr, hnext⟩ := h.advances hx
      have hnext : v.wait? = r.getLeft? := hnext
      refine ⟨hnot, ?_, ?_⟩
      · intro y hy
        rw [hr.errand y (hnext ▸ hy)]
        exact hu.errand x hx
      · intro f hf
        exact hr.isSound hscan (fun g hg => hu.scan g (hg ▸ hx)) f (hnext ▸ hf)
  | none =>
      have hrest (hn : v.wait? = none) : v.IsUpkeep := by
        refine ⟨hnot, fun y hy => ?_, fun f hf => ?_⟩
        · cases hn.symm.trans hy
        · cases hn.symm.trans hf
      cases h with
      | ticks hc hdue hi =>
          refine ⟨hnot, fun y hy => hi.errand (Member.isFor_tick _ _) y hy, fun f hf => ?_⟩
          intro records hrecords
          rw [hi.reply_eq_none hf, CallPoint.records?_none] at hrecords
          cases hrecords
      | rests hc hl hl' => exact hrest (wait?_of_isResting hl' p)
      | follows hf =>
          obtain rfl := hf v rfl
          exact hu
      | routine ha => cases hx
      | ticking ha => cases hx
      | tickEnds ha hl => cases hx
      | _ => exact absurd rfl (hu.not_watch _ _)

/-- Between two rounds nothing happens to the member. -/
theorem Goes.of_isUpkeep {work : Work} {work' : Option Work} {m : Member} {s : Store}
    (h : σ.Goes p work m s work') (hu : work.IsUpkeep) (hx : work.wait? = none) :
    m = σ.member ∧ s = σ.store := by
  cases h with
  | routine ha => cases hx
  | routineEnds ha => cases hx
  | ticks hc hdue hi => exact ⟨rfl, rfl⟩
  | ticking ha => cases hx
  | tickEnds ha hl => cases hx
  | rests hc hl hl' => exact ⟨rfl, rfl⟩
  | keepAliveEnds hc hl => exact ⟨rfl, rfl⟩
  | follows hf => exact ⟨rfl, rfl⟩
  | _ => exact absurd rfl (hu.not_watch _ _)

/-- A routine that starts beside the task that follows the store is a round of upkeep. -/
theorem isUpkeep_of_start (p : String) {r : ServiceMesh.Routine} (hr : ∀ es, r ≠ .apply es)
    (hc : (σ.member.start σ.now r).1.isCancelled = false) {res : Wait ⊕ Except Failure Unit}
    (hi : σ.Continues (σ.member.start σ.now r) res) :
    r = .upkeep ∧ ∀ x, res = .inl x → (Work.routine p x).IsUpkeep := by
  cases r with
  | apply es => exact absurd rfl (hr es)
  | withdrawal => cases hc
  | upkeep =>
      refine ⟨rfl, ?_⟩
      rintro x rfl
      refine ⟨(by rintro _ _ ⟨⟩), fun y hy => ?_, fun f hf => ?_⟩
      · exact hi.errand (Member.isFor_tick _ _) y hy
      · intro records hrecords
        rw [hi.reply_eq_none hf, CallPoint.records?_none] at hrecords
        cases hrecords

/-- What a step of a loop does to the snapshot and to its mark, by what becomes of the stream. -/
inductive Moves (σ : Scene) (loop : WatchLoop) (m : Member) (loop' : WatchLoop) : Prop where
  | stays (hpos : loop'.position? = loop.position?) (hsnap : m.snapshot = σ.member.snapshot)
      (hsync : m.lastSync = σ.member.lastSync ∨ m.lastSync = none)
  | begins {j : Nat} (hpos : loop.position? = none) (hpos' : loop'.position? = some j)
      (hm : m = σ.member)
  | breaks {i : Nat} (hpos : loop.position? = some i) (hpos' : loop'.position? = none)
      (hsync : m.lastSync = none)
  | advances {i j : Nat} (hpos : loop.position? = some i) (hpos' : loop'.position? = some j)
      (hij : i ≤ j)
      (hsnap : m.snapshot = σ.member.snapshot.map fun t => t.replay (σ.store.between i j))
      (hsync : m.lastSync = σ.member.lastSync)

theorem Goes.moves {q : String} {loop : WatchLoop} {work' : Option Work} {m : Member} {s : Store}
    (h : σ.Goes p (.watch q loop) m s work') (hl : loop.IsSound σ.store)
    (hc : σ.member.isCancelled = false) :
    s = σ.store ∧ ∃ loop', work' = some (.watch p loop') ∧ loop'.IsSound σ.store ∧
      σ.Moves loop m loop' := by
  cases h with
  | @subscribes a b hc hdue =>
      refine ⟨rfl, _, rfl, ?_⟩
      cases hsub : σ.store.watch servicePrefix with
      | error f => exact ⟨.of_feed?_eq_none rfl, .stays rfl rfl (.inl rfl)⟩
      | ok feed =>
          refine ⟨⟨fun f hf => ?_, fun es => List.not_mem_nil, (by rintro _ _ _ ⟨⟩)⟩,
            .begins rfl rfl rfl⟩
          obtain rfl := Option.some.inj hf
          rw [Store.watch_eq_ok hsub]
          exact ⟨rfl, Nat.le_refl _⟩
  | @streams a b feed hc =>
      exact ⟨rfl, _, rfl, ⟨hl.feed, fun es => List.not_mem_nil, (by rintro _ _ _ ⟨⟩)⟩,
        .stays rfl rfl (.inl rfl)⟩
  | refused hc => exact ⟨rfl, _, rfl, .of_feed?_eq_none rfl, .stays rfl rfl (.inr rfl)⟩
  | breaks hc => exact ⟨rfl, _, rfl, .of_feed?_eq_none rfl, .breaks rfl rfl rfl⟩
  | @reads feed read hc hnext =>
      -- nothing wanted was passed over, so that the replay of it changes nothing
      obtain ⟨hstart, hle⟩ := hl.feed feed rfl
      obtain ⟨hread, -⟩ := Feed.next_none hle hnext
      have hun := Feed.between_of_next_none hle hnext
      refine ⟨rfl, _, rfl, ⟨fun f hf => ?_, fun es => List.not_mem_nil, (by rintro _ _ _ ⟨⟩)⟩,
        .advances rfl rfl ?_ ?_ rfl⟩
      · obtain rfl := Option.some.inj hf
        rw [hread]
        exact ⟨hstart, Nat.le_refl _⟩
      · rw [hread]
        exact hle
      · simp only [Topology.replay_of_wants_eq_false hstart hun, Option.map_id']
  | @hands feed read injected e r hc hnext hr =>
      -- of all that was passed over only the last event is wanted, and it is the one applied
      obtain ⟨hstart, hle⟩ := hl.feed feed rfl
      obtain ⟨hread, hle', _, -, -, hpos⟩ := Feed.next_ok hnext
      obtain ⟨skipped, hbetween, hun⟩ := Feed.between_of_next_ok hnext
      obtain ⟨hm, hthen⟩ := σ.member.applyEvents_singleton e
      have hij : feed.position ≤ read.position := by omega
      refine ⟨rfl, _, rfl, .after (hread.trans hstart) hle' hl.injected fun x hx => ?_,
        .advances rfl (congrArg _ (WatchLoop.feed?_after ..)) hij ?_ (by rw [hm])⟩
      · rcases hthen with hthen | hthen
        · rw [Continues, hthen] at hr
          cases hr
          exact ⟨_, (Option.some.inj hx).symm⟩
        · rw [Continues, hthen] at hr
          cases hr
          cases hx
      · simp only [hm, hbetween, Topology.replay_append,
          Topology.replay_of_wants_eq_false hstart hun, Topology.replay_cons, Topology.replay_nil]
  | handsBatch hc hnext hr => exact absurd List.mem_cons_self (hl.injected _)
  | @applying feed injected x _ _ r hr =>
      obtain ⟨n, rfl⟩ := hl.applying feed injected x rfl
      obtain ⟨hstart, hle⟩ := hl.feed feed rfl
      cases hr with
      | held n' =>
          refine ⟨rfl, _, rfl, .after hstart hle hl.injected fun x hx => ?_,
            .stays rfl rfl (.inl rfl)⟩
          exact ⟨n', (Option.some.inj hx).symm⟩
      | told hr =>
          cases hr
          exact ⟨rfl, _, rfl, .after hstart hle hl.injected (by rintro x ⟨⟩),
            .stays rfl rfl (.inl rfl)⟩
  | resubscribes hc hdue => exact ⟨rfl, _, rfl, .of_feed?_eq_none rfl, .stays rfl rfl (.inl rfl)⟩
  | watchEnds hc' hl' => cases hc.symm.trans hc'

end Scene

end ServiceMesh
