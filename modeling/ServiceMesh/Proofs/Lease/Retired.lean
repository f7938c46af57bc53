import ServiceMesh.Proofs.Lease.Routine

/-!
After a withdrawal. When its record has been deleted, or the deletion has failed, a withdrawn member
forgets its lease and its snapshot. Routines that were under way may still be waiting then, for the
store or at an inbox, and go on later; whatever they learn, they give none of it back to the member.
-/

namespace ServiceMesh

namespace Member

/-- The member is withdrawn and has forgotten what it knew. -/
structure IsRetired (m : Member) : Prop where
  isCancelled : m.isCancelled = true
  lease : m.lease = none
  failures : m.failures = 0
  snapshot : m.snapshot = none

/-- Without a snapshot there is nothing to apply events to. -/
theorem applyEvents_of_snapshot_eq_none {m : Member} (h : m.snapshot = none) (es : List Event) :
    m.applyEvents es = (m, .done (.ok ())) := by
  induction es with
  | nil => rfl
  | cons e es ih => rw [applyEvents, h, ih]

namespace IsRetired

variable {m : Member}

theorem resume (h : m.IsRetired) (now : Nat) (p : CallPoint) (r : Except Failure p.Reply) :
    (m.resume now p r).1.IsRetired := by
  cases p with
  | grant =>
      cases r with
      | error f => exact h
      | ok lease => rwa [Member.resume, if_pos h.isCancelled]
  | publish lease =>
      cases r with
      | error f => exact h
      | ok u => rwa [Member.resume, if_pos h.isCancelled]
  | withdraw => exact h
  | scan =>
      cases r with
      | error f => exact h
      | ok records => rwa [Member.resume, if_pos h.isCancelled]
  | renew lease => cases r <;> rwa [Member.resume, if_pos h.isCancelled]
  | retire => exact ⟨h.isCancelled, rfl, rfl, rfl⟩

theorem applyEvents (h : m.IsRetired) (es : List Event) : (m.applyEvents es).1.IsRetired := by
  rwa [applyEvents_of_snapshot_eq_none h.snapshot]

theorem notified (h : m.IsRetired) (p : NoticePoint) : (m.notified p).1.IsRetired := by
  cases p with
  | synced => exact h
  | applied rest => exact h.applyEvents rest
  | finished => exact h

theorem watchBroken (h : m.IsRetired) : m.watchBroken.IsRetired := ⟨h.1, h.2, h.3, h.4⟩

theorem start (h : m.IsRetired) (now : Nat) (r : ServiceMesh.Routine) :
    (m.start now r).1.IsRetired := by
  cases r with
  | upkeep => exact h
  | apply es => exact h.applyEvents es
  | withdrawal => exact ⟨rfl, h.lease, h.failures, h.snapshot⟩

/-- A round of upkeep is over before it has asked for anything. -/
theorem tick_eq (h : m.IsRetired) (now : Nat) : m.tick now = .done (.ok ()) := by
  rw [tick, if_pos h.isCancelled]

theorem getService_eq (h : m.IsRetired) (name : String) :
    m.getService name = .error .notReady := by
  rw [getService, h.snapshot]

theorem listServices_eq (h : m.IsRetired) : m.listServices = .error .notReady := by
  rw [listServices, h.snapshot]

end IsRetired

/-- Whatever became of the deletion, the member is retired when its withdrawal goes on. -/
theorem isRetired_resume_of_retire {m : Member} (hc : m.isCancelled = true) (now : Nat)
    {p : CallPoint} (hp : p = .retire) (r : Except Failure p.Reply) :
    (m.resume now p r).1.IsRetired := by
  subst hp
  exact ⟨hc, rfl, rfl, rfl⟩

end Member

/-- The call is over now: its answer is there, or its caller gives up. -/
def Flight.Ends (f : Flight) (now : Nat) : Prop := ∃ r, f.Yields now r

theorem Flight.ends_iff {f : Flight} {now : Nat} :
    f.Ends now ↔
      (f.reply = none ∧ f.deadline < f.actsAt ∧ f.deadline ≤ now) ∨
        (f.reply ≠ none ∧ ((f.answersAt ≤ now ∧ f.answersAt ≤ f.deadline) ∨
          (f.deadline < f.answersAt ∧ f.deadline ≤ now))) := by
  constructor
  · rintro ⟨r, h⟩
    cases h with
    | answer hr hdue hin => exact .inr ⟨by simp [hr], .inl ⟨hdue, hin⟩⟩
    | unsent hr hlate hdue => exact .inl ⟨hr, hlate, hdue⟩
    | unheard hr hlate hdue => exact .inr ⟨by simp [hr], .inr ⟨hlate, hdue⟩⟩
  · rintro (⟨hr, hlate, hdue⟩ | ⟨hr, ⟨hdue, hin⟩ | ⟨hlate, hdue⟩⟩)
    · exact ⟨_, .unsent hr hlate hdue⟩
    · obtain ⟨r, hr⟩ := Option.ne_none_iff_exists'.1 hr
      exact ⟨r, .answer hr hdue hin⟩
    · obtain ⟨r, hr⟩ := Option.ne_none_iff_exists'.1 hr
      exact ⟨_, .unheard hr hlate hdue⟩

instance (f : Flight) (now : Nat) : Decidable (f.Ends now) :=
  decidable_of_iff
    ((f.reply.isNone = true ∧ f.deadline < f.actsAt ∧ f.deadline ≤ now) ∨
      (f.reply.isSome = true ∧ ((f.answersAt ≤ now ∧ f.answersAt ≤ f.deadline) ∨
        (f.deadline < f.answersAt ∧ f.deadline ≤ now))))
    (by rw [Flight.ends_iff, Option.isNone_iff_eq_none, Option.isSome_iff_ne_none])

/-- A call that is over does not wait any longer. -/
theorem Flight.Ends.not_lt {f : Flight} {now : Nat} (h : f.Ends now) :
    ∃ t ∈ (Wait.call f).dueAt, t ≤ now := by
  obtain ⟨r, h⟩ := h
  cases h with
  | answer hr hdue hin => exact ⟨f.answersAt, by simp [Wait.dueAt, hr], hdue⟩
  | unsent hr hlate hdue => exact ⟨f.deadline, by simp [Wait.dueAt, hr], hdue⟩
  | unheard hr hlate hdue => exact ⟨f.deadline, by simp [Wait.dueAt, hr], hdue⟩

namespace Scene

variable {p : String} {σ σ' : Scene} {a : Cluster.Act}

/-! ### Once retired, always retired -/

theorem Advances.isRetired {x : Wait} {m : Member} {s : Store} {r : Wait ⊕ Except Failure Unit}
    (h : σ.Advances x m s r) (hr : σ.member.IsRetired) : m.IsRetired := by
  cases h with
  | acts hn hdue hin => exact hr
  | resumes hy hc => exact hr.resume _ _ _
  | held n' => exact hr
  | told hc => exact hr.notified _

theorem Goes.isRetired {w : Work} {w' : Option Work} {m : Member} {s : Store}
    (h : σ.Goes p w m s w') (hr : σ.member.IsRetired) : m.IsRetired := by
  cases h with
  | routine ha => exact ha.isRetired hr
  | routineEnds ha => exact ha.isRetired hr
  | ticking ha => exact ha.isRetired hr
  | tickEnds ha hl => exact ha.isRetired hr
  | applying ha => exact ha.isRetired hr
  | hands hc hn hi => exact hr.applyEvents _
  | handsBatch hc hn hi => exact hr.applyEvents _
  | refused hc => exact hr.watchBroken
  | breaks hc => exact hr.watchBroken
  | _ => exact hr

theorem Step.isRetired (h : σ.Step p a σ') (hr : σ.member.IsRetired) : σ'.member.IsRetired := by
  cases h with
  | elsewhere hsp hother =>
      have hm : σ'.member = σ.member := congrArg Leased.member hsp.leased
      rwa [hm]
  | waits hw hidle => exact hr
  | steps hw hg => exact hg.isRetired hr
  | slows k d => exact hr
  | @starts r w hi => exact hr.start σ.now r
  | @startsAndEnds r res hi => exact hr.start σ.now r
  | registers hc hs =>
      rw [hr.isCancelled] at hc
      cases hc
  | drops id => exact hr
  | feedsIn what => exact hr

/-! ### How a member is retired -/

/-- Whoever is being withdrawn has been cancelled. -/
def Withdraws (σ : Scene) : Prop :=
  ∀ id x, σ.wait? id = some x → x.errand = .withdrawal → σ.member.isCancelled = true

/-- What a task begins to wait for by itself is no withdrawal. -/
theorem Goes.errand {w : Work} {w' : Option Work} {m : Member} {s : Store}
    (h : σ.Goes p w m s w') {y : Wait} (hy : w'.bind Work.wait? = some y)
    (he : y.errand = .withdrawal) : ∃ x, w.wait? = some x ∧ x.errand = .withdrawal := by
  have happlies {es : List Event} {read : Feed} {injected : List Injection}
      {r : Wait ⊕ Except Failure Unit} (hr : σ.Continues (σ.member.applyEvents es) r)
      (hy : (Work.watch p (.after read injected r)).wait? = some y) : False := by
    rw [wait?_after] at hy
    cases (hr.errand (Member.isFor_applyEvents _ es) y hy).symm.trans he
  cases hx : w.wait? with
  | some x =>
      obtain ⟨r, ha, hr⟩ := h.advances hx
      exact ⟨x, rfl, (ha.errand y (hr.symm.trans hy)).symm.trans he⟩
  | none =>
      -- between two routines a round of upkeep may begin, or events may come
      cases h with
      | ticks hc hdue hi =>
          obtain rfl := Option.some.inj hy
          cases (hi.errand (Member.isFor_tick _ _) _ rfl).symm.trans he
      | hands hc hn hr => exact (happlies hr hy).elim
      | handsBatch hc hn hr => exact (happlies hr hy).elim
      | rests hc hl hl' => cases (wait?_of_isResting hl' p).symm.trans hy
      | follows hw =>
          cases w' with
          | none => cases hy
          | some v =>
              obtain rfl := hw v rfl
              cases hy
      | routine ha => cases hx
      | routineEnds ha => cases hx
      | ticking ha => cases hx
      | tickEnds ha hl => cases hx
      | applying ha => cases hx
      | _ => cases hy

theorem Withdraws.step (hw : σ.Withdraws) (h : σ.Step p a σ') : σ'.Withdraws := by
  intro id x hx he
  have hkept (hx : σ.wait? id = some x) : σ'.member.isCancelled = true :=
    h.isCancelled (hw id x hx he)
  cases h with
  | elsewhere hsp hother =>
      have hwork : σ'.wait? id = σ.wait? id := by rw [wait?, wait?, hsp.work]
      exact hkept (hwork ▸ hx)
  | waits hw' hidle => exact hkept hx
  | @steps i w w' m s hw' hg =>
      rw [wait?_setWork] at hx
      split at hx
      · obtain ⟨y, hy, hye⟩ := hg.errand hx he
        have hwait : σ.wait? i = some y := by rw [wait?, hw']; exact hy
        exact (Step.steps hw' hg).isCancelled (hw i y hwait hye)
      · exact hkept hx
  | slows k d => exact hkept hx
  | @starts r w hi =>
      rw [wait?_spawn] at hx
      split at hx
      · obtain rfl := Option.some.inj hx
        cases r with
        | upkeep => cases (hi.errand (Member.isFor_tick _ _) _ rfl).symm.trans he
        | apply es => cases (hi.errand (Member.isFor_applyEvents _ es) _ rfl).symm.trans he
        | withdrawal => rfl
      · exact hkept hx
  | startsAndEnds hi => exact hkept hx
  | registers hc hs =>
      rw [wait?_spawn] at hx
      split at hx
      · cases hx
      · rw [wait?_spawn] at hx
        split at hx
        · cases hx
        · exact hkept hx
  | drops i =>
      rw [wait?_setWork] at hx
      split at hx
      · cases hx
      · exact hkept hx
  | feedsIn what =>
      rw [wait?_feedIn] at hx
      exact hkept hx

def Retires (σ : Scene) (a : Cluster.Act) : Prop :=
  ∃ id, a = .step id ∧
    ∃ f, σ.wait? id = some (.call f) ∧ f.point = .retire ∧ f.Ends σ.now

theorem Retires.isRetired (hr : σ.Retires a) (hw : σ.Withdraws) (h : σ.Step p a σ') :
    σ'.member.IsRetired := by
  obtain ⟨id, rfl, f, hf, hp, hends⟩ := hr
  have hc : σ.member.isCancelled = true := hw id _ hf (by rw [Wait.errand, hp]; rfl)
  obtain ⟨w, hwork, hwait⟩ := Option.bind_eq_some_iff.1 hf
  cases h with
  | elsewhere _ hother => cases (hother id rfl).symm.trans hwork
  | @waits _ w' hw' hidle =>
      obtain rfl := Option.some.inj (hw'.symm.trans hwork)
      obtain ⟨t, ht, hle⟩ := hends.not_lt
      have hlt := hidle.due t (by rwa [Work.dueAt_of_wait? hwait])
      omega
  | @steps _ w' w'' m s hw' hg =>
      obtain rfl := Option.some.inj (hw'.symm.trans hwork)
      obtain ⟨r, ha, -⟩ := hg.advances hwait
      cases ha with
      | acts hnone hdue hin =>
          obtain ⟨r', hy⟩ := hends
          cases hy with
          | answer hr _ _ => cases hnone.symm.trans hr
          | unsent _ hlate _ => omega
          | unheard hr _ _ => cases hnone.symm.trans hr
      | resumes hy hcont => exact Member.isRetired_resume_of_retire hc _ hp _

end Scene

namespace Cluster

variable {p : String} {c : Cluster} {a : Act} {acts acts' : List Act} {σ : Scene}

/-- The withdrawal of a party's member goes on behind the deletion, whatever came of it. -/
def Retires (p : String) (c : Cluster) (a : Act) : Prop :=
  ∃ id, a = .step id ∧ ∃ f ∈ c.flight? p id, f.point = .retire ∧ f.Ends c.now

instance (p : String) (c : Cluster) (a : Act) : Decidable (Retires p c a) :=
  decidable_of_iff (∃ id ∈ a.step?, ∃ f ∈ c.flight? p id, f.point = .retire ∧ f.Ends c.now)
    (by simp only [Retires, Act.eq_step_iff])

theorem Shows.retires_iff (h : c.Shows p σ) : c.Retires p a ↔ σ.Retires a := by
  simp only [Retires, Scene.Retires, mem_flight?_iff, h.wait?, h.now]

theorem Shows.withdraws_play (h : c.Shows p σ) (ht : c.Tidy) (hw : σ.Withdraws)
    (hstays : Along (Stays p) c acts) :
    (c.play acts).Tidy ∧ ∃ σ', (c.play acts).Shows p σ' ∧ σ'.Withdraws := by
  induction acts generalizing c σ with
  | nil => exact ⟨ht, σ, h, hw⟩
  | cons a acts ih =>
      obtain ⟨σ', h', hstep⟩ := h.act ht hstays.1
      exact ih h' (ht.act a) (hw.step hstep) hstays.2

theorem Shows.isRetired_play (h : c.Shows p σ) (ht : c.Tidy) (hr : σ.member.IsRetired)
    (hstays : Along (Stays p) c acts) :
    ∃ σ', (c.play acts).Shows p σ' ∧ σ'.member.IsRetired := by
  induction acts generalizing c σ with
  | nil => exact ⟨σ, h, hr⟩
  | cons a acts ih =>
      obtain ⟨σ', h', hstep⟩ := h.act ht hstays.1
      exact ih h' (ht.act a) (hstep.isRetired hr) hstays.2

/-- The member of a party is retired, and nothing that is asked of the party starts anything. -/
structure IsRetired (p : String) (c : Cluster) : Prop where
  member : ∃ m, c.member? p = some m ∧ m.IsRetired
  service : ∀ name, (c.directory p).service name = .error .notReady
  names : (c.directory p).names = .error .notReady
  /-- A round of upkeep is over at once, without a task that could call the store. -/
  tick : c.tick p = (c.settle, some (.ok ()))
  spawnTick : c.spawnTick p =
    ({ c with outcomes := (c.nextTask, .ok ()) :: c.outcomes, nextTask := c.nextTask + 1 },
      c.nextTask)
  /-- The loop that kept the member registered begins no round either. -/
  keepAlive : ∀ loop : KeepAliveLoop, loop.IsResting → c.stepKeepAlive p loop = some (c, none)
  register : c.register p = (c, .error .withdrawn)
  act_register : c.act (.register p) = c

theorem Shows.isRetired (h : c.Shows p σ) (hr : σ.member.IsRetired) : c.IsRetired p := by
  have hcancelled : c.isCancelled p = true := by rw [h.isCancelled, hr.isCancelled]
  refine ⟨⟨_, h.member?, hr⟩, fun name => ?_, ?_, ?_, ?_, fun loop hl => ?_, ?_, ?_⟩
  · rw [h.directory]
    exact hr.getService_eq name
  · rw [h.directory]
    exact hr.listServices_eq
  · rw [Cluster.tick, h.member?]
    dsimp only
    rw [hr.tick_eq, perform, Cluster.issue]
  · rw [Cluster.spawnTick, h.member?]
    dsimp only
    rw [hr.tick_eq, Cluster.issue]
  · cases loop with
    | sleeping t => rw [Cluster.stepKeepAlive, if_pos hcancelled]
    | ticking w => exact hl.elim
    | backingOff t => rw [Cluster.stepKeepAlive, if_pos hcancelled]
  · obtain ⟨b, hp⟩ := h.party?
    rw [register, hp]
    exact if_pos hr.isCancelled
  · rw [Cluster.act, if_pos hcancelled]

/-- Once the withdrawal of a member has gone on behind the deletion, the member is retired for
good, whatever was under way then and whatever is done later. -/
theorem isRetired_after_withdrawal (hnew : c.New p)
    (hstays : Along (Stays p) c (acts ++ a :: acts')) (hret : (c.play acts).Retires p a) :
    (c.play (acts ++ a :: acts')).IsRetired p := by
  obtain ⟨σ, h⟩ := hnew.hasMember.shows
  obtain ⟨hbefore, hnow, hafter⟩ := along_append.1 hstays
  have hnone : σ.Withdraws := by
    intro id x hx
    cases (hnew.wait?_eq_none id).symm.trans ((h.wait? id).trans hx)
  obtain ⟨htidy, σ₁, h₁, hw⟩ := h.withdraws_play hnew.tidy hnone hbefore
  obtain ⟨σ₂, h₂, hstep⟩ := h₁.act htidy hnow
  have hr := (h₁.retires_iff.1 hret).isRetired hw hstep
  obtain ⟨σ₃, h₃, hr₃⟩ := h₂.isRetired_play (htidy.act a) hr hafter
  rw [play_append, play_cons]
  exact h₃.isRetired hr₃

/-- A member that has joined, and whose leases take half a second to be granted. -/
def joining : Cluster :=
  ({} : Cluster).act
    (.join "m" ⟨.new 16 .block, .leased {
      member := { node := Node.new "svc" "10.0.0.1" 9001, settings := {} }
      store := 0
      delays := [(.grant, ⟨0, 500⟩)] }⟩)

/-- It asks for a lease, and is withdrawn before the answer is there. -/
def withdrawnWhileJoining : List Act :=
  [.register "m", .start "m" .upkeep, .step 2, .start "m" .withdrawal, .step 3]

/-- The answer comes behind the withdrawal, and the member is to be registered again. -/
def joiningLate : List Act := [.step 3, .pass 500, .step 2, .register "m", .start "m" .upkeep]

theorem isRetired_after_withdrawal_joining :
    Along (Stays "m") joining (withdrawnWhileJoining ++ .step 3 :: joiningLate) ∧
      (joining.play withdrawnWhileJoining).Retires "m" (.step 3) ∧
      (joining.play (withdrawnWhileJoining ++ .step 3 :: joiningLate)).IsRetired "m" :=
  ⟨by decide +kernel, by decide +kernel,
    isRetired_after_withdrawal (new_join rfl rfl _) (by decide +kernel) (by decide +kernel)⟩

end Cluster

end ServiceMesh
