import ServiceMesh.Proofs.Cluster.Settling
import ServiceMesh.Proofs.Lease.Recovery

/-!
When a member gets into its store. From its registration on the loop that does its upkeep sleeps for
one interval, and as long as it does the record of the member is not there. At the first moment at
which the interval is over the loop has its turn, and without delays the record has been written
before anyone else has a turn. From then on it is there, unless the member is withdrawn or its
lease ends.
-/

namespace ServiceMesh

/-- A lease that has just been granted can be written under. -/
theorem Store.exists_put_of_grant {s : Store} (ha : s.isAvailable = true) (key : String)
    (value : List UInt8) :
    ∃ s₁ lease s₂, s.grant = .ok (s₁, lease) ∧ s₁.put key value (some lease) = .ok s₂ := by
  obtain ⟨s₁, lease, hgrant⟩ := exists_grant ha
  have havail : s₁.isAvailable = true := (isAvailable_of_grant hgrant).trans ha
  have hthere : s₁.HasLease lease := (hasLease_of_grant hgrant lease).2 (.inr rfl)
  obtain ⟨s₂, hput⟩ := exists_put havail hthere key value
  exact ⟨s₁, lease, s₂, hgrant, hput⟩

structure Work.IsAside (w : Work) : Prop where
  not_keepAlive : ∀ q loop, w ≠ .keepAlive q loop
  errand : ∀ x, w.wait? = some x → x.errand = .application

/-- What a round of a member asks of the store does not take its record away. -/
theorem CallPoint.get?_perform_of_fits {m : Member} {s : Store} {p : CallPoint}
    (hp : (RoundPoint.call p).Fits m) (h : s.get? m.node.path ≠ none) :
    (p.perform m s).1.get? m.node.path ≠ none := by
  cases p with
  | publish l =>
      cases hr : ((publish l).perform m s).2 with
      | ok u =>
          rw [get?_perform_of_put (p := .publish l) rfl hr]
          exact Option.some_ne_none _
      | error f => rwa [perform_of_error hr]
  | withdraw => exact hp.elim
  | retire => exact hp.elim
  | _ => rwa [get?_perform (by rintro ⟨⟩) (by rintro ⟨⟩)]

namespace Scene

variable {p : String} {id : Nat} {σ σ' : Scene} {w : Work} {w' : Option Work} {m : Member}
  {s : Store}

theorem Goes.isAside (h : σ.Goes p w m s w') (hw : w.IsAside) : ∀ v ∈ w', v.IsAside := by
  have hrests {loop : WatchLoop} (hl : (Work.watch p loop).wait? = none) :
      (Work.watch p loop).IsAside :=
    ⟨fun q loop => by rintro ⟨⟩, fun x hx => by cases hl.symm.trans hx⟩
  have hafter {feed : Feed} {injected : List Injection} {r : Wait ⊕ Except Failure Unit}
      (hr : ∀ y ∈ r.getLeft?, y.errand = .application) :
      (Work.watch p (.after feed injected r)).IsAside := by
    refine ⟨fun q loop => by rintro ⟨⟩, fun x hx => ?_⟩
    rw [wait?_after] at hx
    exact hr x hx
  intro v hv
  cases h with
  | routine ha =>
      cases hv
      refine ⟨fun q loop => by rintro ⟨⟩, fun x hx => ?_⟩
      obtain rfl := Option.some.inj hx
      exact (ha.errand _ rfl).trans (hw.errand _ rfl)
  | routineEnds ha => cases hv
  | ticks hc hdue hi => exact absurd rfl (hw.not_keepAlive _ _)
  | ticking ha => exact absurd rfl (hw.not_keepAlive _ _)
  | tickEnds ha hl => exact absurd rfl (hw.not_keepAlive _ _)
  | rests hc hl hl' => exact absurd rfl (hw.not_keepAlive _ _)
  | keepAliveEnds hc hl => cases hv
  | hands hc hn hr =>
      cases hv
      exact hafter (hr.errand (Member.isFor_applyEvents _ _))
  | handsBatch hc hn hr =>
      cases hv
      exact hafter (hr.errand (Member.isFor_applyEvents _ _))
  | applying ha =>
      cases hv
      exact hafter fun y hy => (ha.errand y hy).trans (hw.errand _ rfl)
  | watchEnds hc hl => cases hv
  | follows hf =>
      obtain rfl := hf v hv
      exact hw
  | _ =>
      cases hv
      exact hrests rfl

def LeftTo (σ : Scene) (id : Nat) : Prop := ∀ j w, σ.work j = some w → j ≠ id → w.IsAside

theorem LeftTo.step (h : σ.LeftTo id) {i : Nat} (hs : σ.Step p (.step i) σ') : σ'.LeftTo id := by
  intro j w hw hj
  cases hs with
  | elsewhere hsp hother => exact h j w (hsp.work ▸ hw) hj
  | waits hw' hidle => exact h j w hw hj
  | steps hi hg =>
      rw [setWork_work] at hw
      split at hw
      · next he =>
          subst he
          exact hg.isAside (h j _ hi hj) w hw
      · exact h j w hw hj

theorem LeftTo.oneRound (h : σ.LeftTo id) : σ.OneRound := by
  have hid {i : Nat} {x : Wait} (hx : σ.wait? i = some x) (he : x.errand = .upkeep) : i = id := by
    obtain ⟨w, hw, hwx⟩ := Option.bind_eq_some_iff.1 hx
    by_contra hne
    cases ((h i w hw hne).errand x hwx).symm.trans he
  exact fun i j x y hx hy hxe hye => (hid hx hxe).trans (hid hy hye).symm

theorem Step.delays {i : Nat} (h : σ.Step p (.step i) σ') : σ'.leased.delays = σ.leased.delays := by
  cases h with
  | elsewhere hsp hother => rw [hsp.leased]
  | waits hw hidle => rfl
  | steps hw hg => rfl

theorem Step.work_of_ne {i j : Nat} (h : σ.Step p (.step i) σ') (hj : j ≠ i) :
    σ'.work j = σ.work j := by
  cases h with
  | elsewhere hsp hother => rw [hsp.work]
  | waits hw hidle => rfl
  | steps hw hg => rw [setWork_work, if_neg hj]; rfl

theorem Advances.get?_ne_none {x : Wait} {r : Wait ⊕ Except Failure Unit}
    (h : σ.Advances x m s r) (hfits : ∀ y ∈ x.roundPoint?, y.Fits σ.member)
    (hk : σ.store.get? σ.member.node.path ≠ none) : s.get? σ.member.node.path ≠ none := by
  cases h with
  | acts hr hdue hin => exact CallPoint.get?_perform_of_fits (hfits _ rfl) hk
  | _ => exact hk

end Scene

namespace Cluster

variable {p k : String} {i id T : Nat} {c d : Cluster} {σ : Scene} {o : Option (Nat × Wait)}
  {t : Task}

/-- The member of a party is upheld by one task, and nobody else has a member in its place. -/
structure Tended (p : String) (i : Nat) (k : String) (id : Nat) (c : Cluster) (σ : Scene)
    (o : Option (Nat × Wait)) : Prop where
  tidy : c.Tidy
  shows : c.Shows p σ
  upheld : σ.Upheld o
  leftTo : σ.LeftTo id
  place : c.place? p = some (i, k)
  apart : ∀ q, q ≠ p → c.place? q ≠ some (i, k)

namespace Tended

theorem store_eq (h : c.Tended p i k id σ o) :
    σ.leased.store = i ∧ σ.member.node.path = k ∧ σ.store = c.store i := by
  have hplace := h.place
  rw [place?, h.shows.leased] at hplace
  obtain ⟨rfl, rfl⟩ := Prod.mk.inj (Option.some.inj hplace)
  exact ⟨rfl, rfl, h.shows.store.symm⟩

theorem step (h : c.Tended p i k id σ o) (ht : c.task? t.id = some t)
    (hd : c.stepTask t = some d) :
    ∃ σ' o', d.Tended p i k id σ' o' ∧ σ.Step p (.step t.id) σ' ∧
      σ.RoundStep p o (.step t.id) σ' o' ∧
      (σ.work t.id = none → (d.store i).get? k = (c.store i).get? k) := by
  have hact : c.act (.step t.id) = d := by
    rw [act, ht]
    dsimp only
    rw [hd]
    rfl
  have hworks := works_stepTask hd
  obtain ⟨σ', h', hs⟩ := h.shows.act h.tidy (a := .step t.id) (by rintro P ⟨⟩)
  have hleft := h.leftTo.step hs
  obtain ⟨o', hr, hu⟩ :=
    h.upheld.step (h.shows.isTidy h.tidy) hs hleft.oneRound (by rintro ⟨⟩)
  have htidy := h.tidy.act (.step t.id)
  rw [hact] at h' htidy
  refine ⟨σ', o', ⟨htidy, h', hu, hleft, ?_, fun q hq => ?_⟩, hs, hr, fun hnone => ?_⟩
  · rw [hworks.place, h.place]
  · rw [hworks.place]
    exact h.apart q hq
  · refine hworks.get? i k (.inr (h.apart _ fun hp => ?_))
    rw [← h.shows.work, work?, ht, Option.bind_some, if_pos hp] at hnone
    cases hnone

theorem alike (h : c.Tended p i k id σ o) (hd : c.Alike d) : d.Tended p i k id σ o where
  tidy := h.tidy.of_eq hd.tasks hd.nextTask
  shows := h.shows.of_alike hd
  upheld := h.upheld
  leftTo := h.leftTo
  place := (hd.works (q := p)).place p ▸ h.place
  apart q hq := (hd.works (q := p)).place q ▸ h.apart q hq

theorem setNow (h : c.Tended p i k id σ o) (now : Nat) :
    ({ c with now } : Cluster).Tended p i k id { σ with now } o where
  tidy := h.tidy
  shows := ⟨h.shows.leased, h.shows.hosted, rfl, h.shows.store, h.shows.work, h.shows.nextTask⟩
  upheld := ⟨h.upheld.withdraws, h.upheld.sound, h.upheld.round, h.upheld.fits⟩
  leftTo := h.leftTo
  place := h.place
  apart := h.apart

end Tended

/-- The loop of the member sleeps until a certain moment, and its record is not there. -/
structure Asleep (p : String) (i : Nat) (k : String) (id T : Nat) (c : Cluster) : Prop where
  scene : ∃ σ, c.Tended p i k id σ none ∧ σ.work id = some (.keepAlive p (.sleeping T)) ∧
    σ.member.lease = none ∧ σ.leased.delays = []
  absent : (c.store i).get? k = none

/-- The moment is over, and the record is there. -/
structure Awake (p : String) (i : Nat) (k : String) (id T : Nat) (c : Cluster) : Prop where
  scene : ∃ σ o, c.Tended p i k id σ o
  due : T ≤ c.now
  present : (c.store i).get? k ≠ none

/-- Whatever else goes on, the loop sleeps on until its turn. -/
theorem Asleep.step (h : c.Asleep p i k id T) (hid : t.id ≠ id) (ht : c.task? t.id = some t)
    (hd : c.stepTask t = some d) : d.Asleep p i k id T := by
  obtain ⟨⟨σ, hσ, hwork, hlease, hdelays⟩, habsent⟩ := h
  obtain ⟨σ', o', hσ', hs, hr, hforeign⟩ := hσ.step ht hd
  have hwork' : σ'.work id = some (.keepAlive p (.sleeping T)) := by
    rw [hs.work_of_ne (Ne.symm hid), hwork]
  have hdelays' := hs.delays.trans hdelays
  cases hr with
  | elsewhere hsp hother =>
      refine ⟨⟨σ', hσ', hwork', ?_, hdelays'⟩, ?_⟩
      · rw [Scene.member, hsp.leased]
        exact hlease
      · rw [hforeign (hother t.id rfl), habsent]
  | heeds hm hstore =>
      obtain ⟨-, -, -, hl, -, -⟩ := hm.keeps
      refine ⟨⟨σ', hσ', hwork', hl.trans hlease, hdelays'⟩, ?_⟩
      rw [← hσ'.store_eq.2.2, hstore, hσ.store_eq.2.2, habsent]
  | @begins _ _ j x hm hstore hc =>
      -- only the loop itself begins a round, and it sleeps
      obtain ⟨hx, he⟩ := (hσ'.upheld.round j x).2 rfl
      obtain ⟨w, hw, hwx⟩ := Option.bind_eq_some_iff.1 hx
      by_cases hj : j = id
      · subst hj
        obtain rfl := Option.some.inj (hw.symm.trans hwork')
        cases hwx
      · cases ((hσ'.leftTo j w hw hj).errand x hwx).symm.trans he

theorem stepTask_sleeping (hc : c.isCancelled p = false) (hT : c.now < T) :
    c.stepTask ⟨id, .keepAlive p (.sleeping T)⟩ = none := by
  rw [stepTask]
  dsimp only
  rw [stepKeepAlive, hc, if_neg Bool.false_ne_true, if_neg (Nat.not_le_of_lt hT)]
  rfl

/-- Before its moment the loop sleeps on. -/
theorem lasts_asleep : Lasts fun c => c.Asleep p i k id T ∧ c.now < T where
  step {c d t} ht hd h := by
    obtain ⟨h, hT⟩ := h
    refine ⟨?_, by rwa [(works_stepTask hd).now]⟩
    by_cases hid : t.id = id
    · obtain ⟨⟨σ, hσ, hwork, -, -⟩, -⟩ := h
      rw [← hσ.shows.work, ← hid, work?_eq_some_iff, ht] at hwork
      rw [Option.some.inj hwork.1] at hd
      have hc := hσ.shows.isCancelled.trans hσ.upheld.sound.isCancelled
      cases (stepTask_sleeping hc hT).symm.trans hd
    · exact h.step hid ht hd
  alike {c d} hd _ h := by
    obtain ⟨⟨⟨σ, hσ, hrest⟩, habsent⟩, hT⟩ := h
    exact ⟨⟨⟨σ, hσ.alike hd, hrest⟩, by rw [hd.store, habsent]⟩, by rwa [hd.now]⟩

theorem lasts_awake : Lasts (Awake p i k id T) where
  step {c d t} ht hd h := by
    obtain ⟨⟨σ, o, hσ⟩, hT, hpresent⟩ := h
    obtain ⟨σ', o', hσ', -, hr, hforeign⟩ := hσ.step ht hd
    refine ⟨⟨σ', o', hσ'⟩, by rwa [(works_stepTask hd).now], ?_⟩
    obtain ⟨-, hk, hstore⟩ := hσ.store_eq
    rw [← hstore, ← hk] at hpresent
    rw [← hσ'.store_eq.2.2, ← hk]
    cases hr with
    | elsewhere hsp hother =>
        rw [hσ'.store_eq.2.2, hk, hforeign (hother t.id rfl), ← hstore, ← hk]
        exact hpresent
    | heeds hm hs => rwa [hs]
    | begins hm hs hc => rwa [hs]
    | advances ha => exact ha.get?_ne_none (hσ.upheld.fits _ rfl) hpresent
  alike {c d} hd _ h := by
    obtain ⟨⟨σ, o, hσ⟩, hT, hpresent⟩ := h
    exact ⟨⟨σ, o, hσ.alike hd⟩, by rwa [hd.now], by rwa [hd.store]⟩

/-! ### The turn of the loop -/

variable {l : Leased} {f : Flight} {s : Store} {now : Nat}

/-- The loop begins a round. -/
theorem stepTask_wakes (id : Nat) (hl : c.leased? p = some l) (hc : l.member.isCancelled = false)
    (hlease : l.member.lease = none) (hT : T ≤ c.now) :
    c.stepTask ⟨id, .keepAlive p (.sleeping T)⟩ =
      some (c.setTask id (some (.keepAlive p (.ticking (.call (l.flight c.now .grant)))))) := by
  have hm : c.member? p = some l.member := by
    rw [member?, hl]
    rfl
  have hcancelled : c.isCancelled p = false := by
    rw [isCancelled, hm]
    exact hc
  have htick : l.member.tick c.now = .call .grant := by
    rw [Member.tick, if_neg (by simp [hc]), if_pos (by simp [hlease])]
  have hissue : c.issue p (.call .grant) = .inl (.call (l.flight c.now .grant)) := by
    rw [issue, hl]
    rfl
  rw [stepTask]
  dsimp only
  rw [stepKeepAlive, hcancelled, if_neg Bool.false_ne_true, if_pos hT, hm]
  change Option.map _ (some (c, c.afterTickStep p (c.issue p (l.member.tick c.now)))) = _
  rw [htick, hissue]
  rfl

/-- The call of the round reaches the store. -/
theorem stepTask_acts (id : Nat) (hl : c.leased? p = some l) (hr : f.reply = none)
    (hdue : f.actsAt ≤ c.now) (hin : f.actsAt ≤ f.deadline) :
    c.stepTask ⟨id, .keepAlive p (.ticking (.call f))⟩ =
      some ((c.setStore l.store (f.point.perform l.member (c.store l.store)).1).setTask id
        (some (.keepAlive p (.ticking (.call
          { f with reply := some (f.point.perform l.member (c.store l.store)).2 }))))) := by
  rw [stepTask]
  dsimp only
  rw [stepKeepAlive, stepWait, stepFlight, hl]
  dsimp only [Option.bind_eq_bind, Option.bind_some]
  rw [hr]
  dsimp only
  rw [if_pos ⟨hdue, hin⟩]
  rfl

/-- The answer comes back, and the round goes on to its next call. -/
theorem stepTask_resumes (id : Nat) (hl : c.leased? p = some l)
    {reply : Except Failure f.point.Reply} (hr : f.reply = some reply)
    (hdue : f.answersAt ≤ c.now) (hin : f.answersAt ≤ f.deadline)
    {q : CallPoint} (hq : l.member.resume c.now f.point reply = (l.member, .call q)) :
    c.stepTask ⟨id, .keepAlive p (.ticking (.call f))⟩ =
      some ((c.setMember p l.member).setTask id
        (some (.keepAlive p (.ticking (.call (l.flight c.now q)))))) := by
  have hissue : (c.setMember p l.member).issue p (.call q) = .inl (.call (l.flight c.now q)) := by
    rw [issue, leased?_setMember_self hl, setMember_now]
    rfl
  rw [stepTask]
  dsimp only
  rw [stepKeepAlive, stepWait, stepFlight, hl]
  dsimp only [Option.bind_eq_bind, Option.bind_some]
  rw [hr]
  dsimp only
  rw [if_pos ⟨hdue, hin⟩, answer, hq, continueWith]
  dsimp only
  rw [hissue]
  rfl

structure IsPrompt (now : Nat) (f : Flight) : Prop where
  acts : f.actsAt ≤ now
  actsIn : f.actsAt ≤ f.deadline
  answers : f.answersAt ≤ now
  answersIn : f.answersAt ≤ f.deadline

theorem isPrompt_flight (hl : l.delays = []) (now : Nat) (q : CallPoint) :
    IsPrompt now (l.flight now q) := by
  have hdelay : l.delay q.kind = {} := by
    rw [Leased.delay, hl]
    rfl
  rw [Leased.flight, hdelay]
  exact ⟨Nat.le_refl _, Nat.le_add_right _ _, Nat.le_refl _, Nat.le_add_right _ _⟩

/-- The loop is in the middle of a turn and has to wait for a call. -/
structure Calls (p : String) (id now : Nat) (l : Leased) (c : Cluster) (f : Flight) (s : Store) :
    Prop where
  tended : ∃ σ o, c.Tended p l.store l.member.node.path id σ o
  now : c.now = now
  task : c.task? id = some ⟨id, .keepAlive p (.ticking (.call f))⟩
  leased : c.leased? p = some l
  hosted : l.store < c.stores.length
  store : c.store l.store = s

theorem task?_setTask_self (c : Cluster) (id : Nat) (w : Work) :
    (c.setTask id (some w)).task? id = some ⟨id, w⟩ := by
  rw [task?_setTask, if_pos rfl]
  rfl

/-- The call reaches the store in the same turn. -/
theorem Calls.acts (h : c.Calls p id now l f s) (hr : f.reply = none) (hdue : f.actsAt ≤ now)
    (hin : f.actsAt ≤ f.deadline) :
    ∃ d, (∀ fuel, (runTask id (fuel + 1) c).1 = (runTask id fuel d).1) ∧
      d.Calls p id now l { f with reply := some (f.point.perform l.member s).2 }
        (f.point.perform l.member s).1 := by
  obtain ⟨⟨σ, o, hσ⟩, rfl, ht, hl, hhosted, rfl⟩ := h
  have hd := stepTask_acts id hl hr hdue hin
  obtain ⟨σ', o', hσ', -⟩ := hσ.step ht hd
  refine ⟨_, runTask_succ ht hd, ⟨σ', o', hσ'⟩, rfl, task?_setTask_self _ _ _, hl, ?_, ?_⟩
  · exact (length_stores_setStore c _ _).symm ▸ hhosted
  · exact store_setStore_self hhosted _

/-- The answer comes back in the same turn, and the next call sets out. -/
theorem Calls.resumes (h : c.Calls p id now l f s) {reply : Except Failure f.point.Reply}
    (hr : f.reply = some reply) (hdue : f.answersAt ≤ now) (hin : f.answersAt ≤ f.deadline)
    {q : CallPoint} (hq : l.member.resume now f.point reply = (l.member, .call q)) :
    ∃ d, (∀ fuel, (runTask id (fuel + 1) c).1 = (runTask id fuel d).1) ∧
      d.Calls p id now l (l.flight now q) s := by
  obtain ⟨⟨σ, o, hσ⟩, rfl, ht, hl, hhosted, rfl⟩ := h
  have hd := stepTask_resumes id hl hr hdue hin hq
  obtain ⟨σ', o', hσ', -⟩ := hσ.step ht hd
  refine ⟨_, runTask_succ ht hd, ⟨σ', o', hσ'⟩, ?_, task?_setTask_self _ _ _, ?_, ?_, ?_⟩
  · exact setMember_now c p _
  · exact leased?_setMember_self hl l.member
  · exact (congrArg List.length (setMember_stores c p _)).symm ▸ hhosted
  · exact congrArg (List.getD · l.store .empty) (setMember_stores c p _)

/-- The loop wakes and asks for a lease. -/
theorem Asleep.wakes (h : c.Asleep p i k id T) (hT : T ≤ c.now) :
    ∃ l d, l.store = i ∧ l.member.node.path = k ∧ l.delays = [] ∧ l.member.isCancelled = false ∧
      (∀ fuel, (runTask id (fuel + 1) c).1 = (runTask id fuel d).1) ∧
      d.Calls p id c.now l (l.flight c.now .grant) (c.store i) := by
  obtain ⟨⟨σ, hσ, hwork, hlease, hdelays⟩, -⟩ := h
  obtain ⟨rfl, rfl, -⟩ := hσ.store_eq
  have hl := hσ.shows.leased
  have hc := hσ.upheld.sound.isCancelled
  rw [← hσ.shows.work, work?_eq_some_iff] at hwork
  have hd := stepTask_wakes id hl hc hlease hT
  obtain ⟨σ', o', hσ', -⟩ := hσ.step hwork.1 hd
  exact ⟨σ.leased, _, rfl, rfl, hdelays, hc, runTask_succ hwork.1 hd, ⟨σ', o', hσ'⟩, rfl,
    task?_setTask_self _ _ _, hl, hσ.shows.hosted, rfl⟩

/-- At its turn the loop registers the member: it asks for a lease, hears of it, and writes the
record, all of it before anyone else has a turn. -/
theorem Asleep.turn (h : c.Asleep p i k id T) (hT : T ≤ c.now)
    (ha : (c.store i).isAvailable = true) : (runTask id patience c).1.Awake p i k id T := by
  obtain ⟨l, c₁, rfl, rfl, hdelays, hc, hrun₁, h₁⟩ := h.wakes hT
  obtain ⟨s₁, lease, s₂, hgrant, hput⟩ :=
    Store.exists_put_of_grant ha l.member.node.path l.member.node.encode
  have hasked : CallPoint.grant.perform l.member (c.store l.store) = (s₁, .ok lease) := by
    rw [CallPoint.perform, hgrant]
  have hwritten : (CallPoint.publish lease).perform l.member s₁ = (s₂, .ok ()) := by
    rw [CallPoint.perform, hput]
  have hheard : l.member.resume c.now .grant (.ok lease) =
      (l.member, .call (.publish lease)) := by
    rw [Member.resume.eq_def]
    exact if_neg (by simp [hc])
  have hflight (q : CallPoint) := isPrompt_flight hdelays c.now q
  -- the store grants a lease
  obtain ⟨c₂, hrun₂, h₂⟩ := h₁.acts rfl (hflight _).acts (hflight _).actsIn
  have h₂ : c₂.Calls p id c.now l
      { l.flight c.now .grant with reply := some (CallPoint.grant.perform l.member _).2 }
      (CallPoint.grant.perform l.member _).1 := h₂
  rw [hasked] at h₂
  -- the member hears of it
  obtain ⟨c₃, hrun₃, h₃⟩ :=
    h₂.resumes rfl (hflight .grant).answers (hflight .grant).answersIn hheard
  -- the store writes the record
  obtain ⟨c₄, hrun₄, h₄⟩ := h₃.acts rfl (hflight _).acts (hflight _).actsIn
  have hpresent : (c₄.store l.store).get? l.member.node.path = some l.member.node.encode := by
    rw [h₄.store]
    exact CallPoint.get?_perform_of_put (p := .publish lease) rfl (congrArg Prod.snd hwritten)
  obtain ⟨fuel, hfuel⟩ : ∃ fuel, patience = fuel + 4 := ⟨9999996, rfl⟩
  rw [hfuel, hrun₁, hrun₂, hrun₃, hrun₄]
  refine runTask_keeps (fun _ => lasts_awake.step) fuel ⟨h₄.tended, h₄.now ▸ hT, ?_⟩
  rw [hpresent]
  exact Option.some_ne_none _

/-! ### From rest to rest -/

theorem lasts_isAvailable (i : Nat) (b : Bool) : Lasts fun c => (c.store i).isAvailable = b where
  step _ hd h := by rwa [(works_stepTask hd).isAvailable]
  alike hd _ h := by rwa [hd.store]

structure Absent (p : String) (i : Nat) (k : String) (c : Cluster) : Prop where
  place : c.place? p = some (i, k)
  isAvailable : (c.store i).isAvailable = false
  absent : (c.store i).get? k = none

/-- In a store that is not available no record appears. -/
theorem lasts_absent : Lasts (Absent p i k) where
  step _ hd h := by
    have hworks := works_stepTask hd
    exact ⟨(hworks.place p).trans h.place, (hworks.isAvailable i).trans h.isAvailable,
      (hworks.get? i k (.inl h.isAvailable)).trans h.absent⟩
  alike {c d} hd _ h := by
    exact ⟨((hd.works (q := p)).place p).trans h.place, by rw [hd.store, h.isAvailable],
      by rw [hd.store, h.absent]⟩

/-- The cluster is at rest, and the record of the member is there as it should be: from a certain
moment on, if the store is available. -/
inductive AtRest (p : String) (i : Nat) (k : String) (id T : Nat) (c : Cluster) : Prop where
  | unavailable (h : c.Absent p i k)
  | asleep (h : c.Asleep p i k id T) (hT : c.now < T)
  | awake (ha : (c.store i).isAvailable = true) (h : c.Awake p i k id T)

theorem Asleep.place (h : c.Asleep p i k id T) : c.place? p = some (i, k) := by
  obtain ⟨σ, hσ, -⟩ := h.scene
  exact hσ.place

theorem AtRest.place (h : c.AtRest p i k id T) : c.place? p = some (i, k) := by
  cases h with
  | unavailable h => exact h.place
  | asleep h hT => exact h.place
  | awake ha h =>
      obtain ⟨σ, o, hσ⟩ := h.scene
      exact hσ.place

theorem storeOf_of_place? (h : c.place? p = some (i, k)) : c.storeOf p = c.store i := by
  obtain ⟨l, hl, hplace⟩ := Option.map_eq_some_iff.1 h
  obtain ⟨rfl, -⟩ := Prod.mk.inj hplace
  rw [storeOf, hl]

theorem AtRest.present_iff (h : c.AtRest p i k id T) :
    (c.storeOf p).get? k ≠ none ↔ (c.storeOf p).isAvailable = true ∧ T ≤ c.now := by
  rw [storeOf_of_place? h.place]
  cases h with
  | unavailable h => simp [h.isAvailable, h.absent]
  | asleep h hT => simp [h.absent, Nat.not_le_of_lt hT]
  | awake ha h => simp [ha, h.due, h.present]

/-- A loop that is due has its turn before the cluster is at rest. -/
theorem Asleep.awake_settle (h : c.Asleep p i k id T) (hT : T ≤ c.now)
    (ha : (c.store i).isAvailable = true) : c.settle.Awake p i k id T := by
  have hid : id ∈ c.tasks.map (·.id) := by
    obtain ⟨σ, hσ, hwork, -, -⟩ := h.scene
    rw [← hσ.shows.work, work?_eq_some_iff] at hwork
    exact List.mem_map_of_mem (List.mem_of_find?_eq_some hwork.1)
  refine lasts_awake.settle_of_runRound (runRound_turn (I := fun c => c.Asleep p i k id T ∧
    T ≤ c.now ∧ (c.store i).isAvailable = true) hid (fun hne ht hd h => ?_)
    (fun h => h.1.turn h.2.1 h.2.2) lasts_awake ⟨h, hT, ha⟩)
  obtain ⟨h, hT, ha⟩ := h
  have hworks := works_stepTask hd
  exact ⟨h.step hne ht hd, by rwa [hworks.now], by rwa [hworks.isAvailable]⟩

theorem Asleep.atRest_settle (h : c.Asleep p i k id T) : c.settle.AtRest p i k id T := by
  cases ha : (c.store i).isAvailable with
  | false =>
      exact .unavailable (lasts_absent.settle ⟨h.place, ha, h.absent⟩)
  | true =>
      rcases Nat.lt_or_ge c.now T with hT | hT
      · obtain ⟨h, hT⟩ := lasts_asleep.settle ⟨h, hT⟩
        exact .asleep h hT
      · exact .awake ((lasts_isAvailable i true).settle ha) (h.awake_settle hT ha)

/-- However much time passes, the cluster comes to rest again. -/
theorem AtRest.settle (h : c.AtRest p i k id T) {t : Nat} (ht : c.now ≤ t) :
    ({ c with now := t } : Cluster).settle.AtRest p i k id T := by
  cases h with
  | unavailable h =>
      have habsent : ({ c with now := t } : Cluster).Absent p i k :=
        ⟨h.place, h.isAvailable, h.absent⟩
      exact .unavailable (lasts_absent.settle habsent)
  | asleep h hT =>
      obtain ⟨⟨σ, hσ, hrest⟩, habsent⟩ := h
      exact Asleep.atRest_settle ⟨⟨_, hσ.setNow t, hrest⟩, habsent⟩
  | awake ha h =>
      obtain ⟨⟨σ, o, hσ⟩, hT, hpresent⟩ := h
      have hawake : ({ c with now := t } : Cluster).Awake p i k id T :=
        ⟨⟨_, o, hσ.setNow t⟩, Nat.le_trans hT ht, hpresent⟩
      exact .awake ((lasts_isAvailable i true).settle (c := { c with now := t }) ha)
        (lasts_awake.settle hawake)

theorem AtRest.advance (h : c.AtRest p i k id T) (ms : Nat) :
    (c.advance ms).AtRest p i k id T :=
  advance_keeps (fun ht h => h.settle ht) ms h

end Cluster

/-! ### Registering -/

namespace Scene

variable {p : String} {a b n : Nat} {σ : Scene} {w : Work}

def enrolled (σ : Scene) (p : String) (a b : Nat) : Scene :=
  ((σ.put { σ.member with isStarted := true } σ.store).spawn
    (.keepAlive p (.sleeping (σ.now + σ.member.settings.tick)))).spawn
      (.watch p (.subscribing a b none))

def FollowsOnly (σ : Scene) (p : String) : Prop :=
  ∀ n w, σ.work n = some w → ∃ sink who, w = .follow p sink who

theorem enrolled_work_self (σ : Scene) (p : String) (a b : Nat) :
    (σ.enrolled p a b).work σ.nextTask =
      some (.keepAlive p (.sleeping (σ.now + σ.member.settings.tick))) := by
  rw [enrolled, spawn_work, spawn_nextTask, put_nextTask, if_neg (by omega), spawn_work,
    put_nextTask, if_pos rfl]

theorem FollowsOnly.isAside (h : σ.FollowsOnly p) (hw : (σ.enrolled p a b).work n = some w)
    (hn : n ≠ σ.nextTask) : w.IsAside ∧ w.wait? = none := by
  rw [enrolled, spawn_work, spawn_work] at hw
  split at hw
  · obtain rfl := Option.some.inj hw
    exact ⟨⟨fun q loop => by rintro ⟨⟩, fun x hx => by cases hx⟩, rfl⟩
  · rw [put_nextTask, if_neg hn] at hw
    obtain ⟨sink, who, rfl⟩ := h n w hw
    exact ⟨⟨fun q loop => by rintro ⟨⟩, fun x hx => by cases hx⟩, rfl⟩

theorem FollowsOnly.wait?_eq_none (h : σ.FollowsOnly p) (n : Nat) :
    (σ.enrolled p a b).wait? n = none := by
  by_cases hn : n = σ.nextTask
  · rw [hn, wait?, enrolled_work_self]
    rfl
  · cases hw : (σ.enrolled p a b).work n with
    | none => rw [wait?, hw, Option.bind_none]
    | some w => rw [wait?, hw, Option.bind_some, (h.isAside hw hn).2]

/-- The member is upheld as soon as its loops were started. -/
theorem FollowsOnly.upheld (h : σ.FollowsOnly p)
    (hm : σ.member = { node := σ.member.node, settings := σ.member.settings }) :
    (σ.enrolled p a b).Upheld none := by
  refine ⟨fun n x hx => ?_, ?_, fun n x => ?_, by rintro r ⟨⟩⟩
  · cases (h.wait?_eq_none n).symm.trans hx
  · change Member.IsSound { σ.member with isStarted := true }
    rw [hm]
    exact ⟨rfl, LeaseSettings.limit_pos _, fun _ => rfl⟩
  · rw [h.wait?_eq_none]
    simp

end Scene

namespace Cluster

variable {p k : String} {i : Nat} {c : Cluster} {σ : Scene}

/-- A newcomer that has its place in a store to itself, and whose record is not there yet. -/
structure Lone (p : String) (i : Nat) (k : String) (c : Cluster) : Prop where
  new : c.New p
  delays : ∀ l ∈ c.leased? p, l.delays = []
  place : c.place? p = some (i, k)
  apart : ∀ q, q ≠ p → c.place? q ≠ some (i, k)
  absent : (c.store i).get? k = none

theorem New.followsOnly (h : c.New p) (hσ : c.Shows p σ) : σ.FollowsOnly p := by
  intro n w hw
  rw [← hσ.work, work?_eq_some_iff] at hw
  exact h.tasks _ (List.mem_of_find?_eq_some hw.1) hw.2

/-- Somebody joins where nobody else is. -/
theorem lone_join (hc : c.Tidy) (hs : i < c.stores.length) (n : Node) (settings : LeaseSettings)
    (b : Bus)
    (htasks : ∀ t ∈ c.tasks, t.work.party = p → ∃ sink who, t.work = .follow p sink who)
    (hapart : ∀ q, q ≠ p → c.place? q ≠ some (i, n.path))
    (habsent : (c.store i).get? n.path = none) :
    (c.join p { node := n, settings } i b).Lone p i n.path ∧
      (c.join p { node := n, settings } i b).settings p = settings := by
  have hl : (c.join p { node := n, settings } i b).leased? p =
      some { member := { node := n, settings }, store := i } := by
    rw [leased?, join, party?_setParty, if_pos rfl]
  refine ⟨⟨⟨hc, ⟨_, hl, hs⟩, fun m hm => ?_, htasks⟩, fun l hl' => ?_, ?_, fun q hq => ?_,
    habsent⟩, ?_⟩
  · rw [member?, hl] at hm
    obtain rfl := Option.some.inj hm
    rfl
  · obtain rfl := Option.some.inj (hl.symm.trans hl')
    rfl
  · rw [place?, hl]
    rfl
  · rw [place?, join, leased?_setParty_of_ne hq]
    exact hapart q hq
  · rw [Cluster.settings, member?, hl]
    rfl

/-- A newcomer that is registered sleeps for an interval. -/
theorem Lone.asleep (h : c.Lone p i k) :
    (c.startLoops p).Asleep p i k c.nextTask (c.now + (c.settings p).tick) := by
  obtain ⟨σ, hσ⟩ := h.new.hasMember.shows
  have hm := h.new.member σ.member hσ.member?
  have hfollows := h.new.followsOnly hσ
  obtain ⟨a, b, hσ'⟩ := hσ.startLoops_self h.new.tidy (by rw [hm])
  have hworks := works_startLoops c p
  have hsettings : c.settings p = σ.member.settings := by rw [settings, hσ.member?]
  rw [hσ.now, hsettings, hσ.nextTask]
  refine ⟨⟨σ.enrolled p a b, ⟨startLoops_tidy h.new.tidy p, hσ', hfollows.upheld hm, ?_, ?_, ?_⟩,
    σ.enrolled_work_self p a b, ?_, h.delays σ.leased hσ.leased⟩, ?_⟩
  · exact fun n w hw hn => (hfollows.isAside hw hn).1
  · rw [hworks.place, h.place]
  · intro q hq
    rw [hworks.place]
    exact h.apart q hq
  · change σ.member.lease = none
    rw [hm]
  · rw [store, stores_startLoops]
    exact h.absent

/-- From its registration on the record of a newcomer is there as it should be. -/
theorem Lone.atRest_register (h : c.Lone p i k) :
    ∃ id, (c.register p).1.AtRest p i k id (c.now + (c.settings p).tick) := by
  obtain ⟨l, hl, -⟩ := h.new.hasMember
  have hm := h.new.member l.member (by rw [member?, hl]; rfl)
  have hrunning : l.member.isCancelled = false := by rw [hm]
  have hcancelled : c.isCancelled p = false := by
    rw [isCancelled, member?, hl]
    exact hrunning
  have hregister : (c.register p).1 = (c.startLoops p).settle := by
    rw [register_of_leased hl hrunning, act, hcancelled, if_neg Bool.false_ne_true]
  rw [hregister]
  exact ⟨c.nextTask, h.asleep.atRest_settle⟩

end Cluster

end ServiceMesh
