import ServiceMesh.Proofs.Lease.Snapshot

/-!
A snapshot behind a gap. When the stream of a member breaks, events are missed until there is a new
one. The mark that makes the next round of upkeep read the store again is set when the stream
breaks, not when there is a new one; a round in between takes the mark away, and what it has read
may be out of date before the new stream begins.
-/

namespace ServiceMesh

/-- A round of upkeep that waits here goes on to read the store, if it has to be read. -/
def CallPoint.LeadsToScan : CallPoint → Prop
  | grant => True
  | publish _ => True
  | scan => True
  | _ => False

theorem Leased.Issues.eq_of_call {l : Leased} {now : Nat} {q : CallPoint}
    {r : Wait ⊕ Except Failure Unit} (h : l.Issues now (.call q) r) :
    r = .inl (.call (l.flight now q)) := by
  cases h
  rfl

namespace Member

/-- A round that does not read the store finds that it was read before. -/
theorem syncStep_cases (m : Member) (now : Nat) :
    m.syncStep now = .call .scan ∨ m.lastSync ≠ none := by
  rw [syncStep]
  split
  · exact .inl rfl
  · next hneeds =>
      right
      intro hnone
      rw [needsResync, hnone, Bool.or_true] at hneeds
      exact hneeds rfl

theorem tick_cases {m : Member} (hc : m.isCancelled = false) (now : Nat) :
    (∃ q, m.tick now = .call q ∧ q.LeadsToScan) ∨ m.lastSync ≠ none := by
  rw [tick, hc, if_neg Bool.false_ne_true]
  split
  · exact .inl ⟨.grant, rfl, trivial⟩
  · rcases m.syncStep_cases now with hs | hs
    · exact .inl ⟨.scan, hs, trivial⟩
    · exact .inr hs

theorem resume_of_leadsToScan {m : Member} (hc : m.isCancelled = false) (now : Nat) {q : CallPoint}
    (hq : q.LeadsToScan) (r : q.Reply) :
    (∃ q', (m.resume now q (.ok r)).2 = .call q' ∧ q'.LeadsToScan) ∨
      (m.resume now q (.ok r)).1.lastSync ≠ none := by
  have hc' : ¬m.isCancelled = true := by simp [hc]
  cases q with
  | grant => exact .inl ⟨.publish r, by rw [resume, if_neg hc'], trivial⟩
  | publish lease =>
      rw [resume, if_neg hc']
      rcases syncStep_cases { m with lease := some lease, failures := 0 } now with hs | hs
      · exact .inl ⟨.scan, hs, trivial⟩
      · exact .inr hs
  | scan =>
      rw [resume, if_neg hc']
      exact .inr (Option.some_ne_none now)
  | _ => exact hq.elim

end Member

namespace Scene

def AwaitsScan (T : Nat) (σ : Scene) : Prop :=
  ∃ f, σ.wait? T = some (.call f) ∧ f.point.LeadsToScan

variable {p : String} {T : Nat} {σ σ' : Scene} {a : Cluster.Act}

/-- What begins a round of upkeep in the middle of a task. -/
theorem Goes.begins {work : Work} {work' : Option Work} {m : Member} {s : Store}
    (h : σ.Goes p work m s work') (hx : work.wait? = none) {y : Wait}
    (hy : work'.bind Work.wait? = some y) (he : y.errand = .upkeep) :
    σ.member.isCancelled = false ∧ m = σ.member ∧
      σ.leased.Issues σ.now (σ.member.tick σ.now) (.inl y) := by
  have happlies {es : List Event} {read : Feed} {injected : List Injection}
      {r : Wait ⊕ Except Failure Unit} (hr : σ.Continues (σ.member.applyEvents es) r)
      (hy : (Work.watch p (.after read injected r)).wait? = some y) : False := by
    rw [wait?_after] at hy
    cases (hr.errand (Member.isFor_applyEvents _ es) y hy).symm.trans he
  -- only a tick and a batch of events make a task wait, and a batch is no upkeep
  cases h with
  | ticks hc hdue hi =>
      obtain rfl := Option.some.inj hy
      exact ⟨hc, rfl, hi⟩
  | hands hc hn hr => exact (happlies hr hy).elim
  | handsBatch hc hn hr => exact (happlies hr hy).elim
  | rests hc hl hl' => cases (wait?_of_isResting hl' p).symm.trans hy
  | follows hw =>
      cases work' with
      | none => cases hy
      | some v =>
          obtain rfl := hw v rfl
          cases hy
  | routine ha => cases hx
  | routineEnds ha => cases hx
  | ticking ha => cases hx
  | tickEnds ha hl => cases hx
  | applying ha => cases hx
  | _ => cases hy

/-- A round of upkeep begins before the reading of the store, or the store was read already. -/
theorem Step.begins_round (h : σ.Step p a σ') (hc : σ'.member.isCancelled = false)
    (hT : σ.wait? T = none) {x : Wait} (hx : σ'.wait? T = some x) (he : x.errand = .upkeep) :
    σ'.AwaitsScan T ∨ σ'.member.lastSync ≠ none := by
  have hissued {l : Leased} (hc : σ.member.isCancelled = false)
      (hi : l.Issues σ.now (σ.member.tick σ.now) (.inl x)) :
      (∃ f, x = .call f ∧ f.point.LeadsToScan) ∨ σ.member.lastSync ≠ none := by
    rcases Member.tick_cases hc σ.now with ⟨q, hq, hlead⟩ | hsync
    · rw [hq] at hi
      exact .inl ⟨_, Sum.inl.inj hi.eq_of_call, hlead⟩
    · exact .inr hsync
  have hsame (hw : σ'.wait? T = σ.wait? T) : False := by
    rw [hw, hT] at hx
    cases hx
  cases h with
  | elsewhere hsp hother => exact (hsame (by rw [wait?, wait?, hsp.work])).elim
  | waits hw hidle => exact (hsame rfl).elim
  | slows k d => exact (hsame rfl).elim
  | startsAndEnds hi => exact (hsame rfl).elim
  | feedsIn what => exact (hsame (wait?_feedIn σ what T)).elim
  | drops id =>
      rw [wait?_setWork] at hx
      split at hx
      · cases hx
      · cases hT.symm.trans hx
  | registers hc hs =>
      rw [wait?_spawn, wait?_spawn] at hx
      split at hx
      · cases hx
      · split at hx
        · cases hx
        · cases hT.symm.trans hx
  | @steps id work work' m s hw hg =>
      have hx' := hx
      rw [wait?_setWork] at hx'
      split at hx'
      · next hid =>
          subst hid
          rw [wait?, hw] at hT
          obtain ⟨hc, rfl, hi⟩ := hg.begins hT hx' he
          rcases hissued hc hi with ⟨f, rfl, hlead⟩ | hsync
          · exact .inl ⟨f, hx, hlead⟩
          · exact .inr hsync
      · cases hT.symm.trans hx'
  | @starts r w hi =>
      have hx' := hx
      rw [wait?_spawn] at hx'
      split at hx'
      · obtain rfl := Option.some.inj hx'
        cases r with
        | upkeep =>
            rcases hissued hc hi with ⟨f, rfl, hlead⟩ | hsync
            · exact .inl ⟨f, hx, hlead⟩
            · exact .inr hsync
        | apply es => cases (hi.errand (Member.isFor_applyEvents _ es) w rfl).symm.trans he
        | withdrawal => cases hc
      · cases hT.symm.trans hx'

/-- A round of upkeep whose calls succeed comes to the reading of the store, or finds that it was
read already. -/
theorem Step.awaitsScan (h : σ.Step p a σ') (hc : σ'.member.isCancelled = false)
    (hlt : T < σ.nextTask) (hdrop : a ≠ .drop T)
    (hfails : ∀ f, a = .step T → σ.wait? T = some (.call f) → ¬f.Fails σ.now)
    (hT : σ.AwaitsScan T) : σ'.AwaitsScan T ∨ σ'.member.lastSync ≠ none := by
  obtain ⟨f, hf, hlead⟩ := hT
  have hsame (hw : σ'.wait? T = σ.wait? T) : σ'.AwaitsScan T ∨ σ'.member.lastSync ≠ none :=
    .inl ⟨f, hw.trans hf, hlead⟩
  cases h with
  | elsewhere hsp hother => exact hsame (by rw [wait?, wait?, hsp.work])
  | waits hw hidle => exact hsame rfl
  | slows k d => exact hsame rfl
  | startsAndEnds hi => exact hsame rfl
  | feedsIn what => exact hsame (wait?_feedIn σ what T)
  | drops id =>
      have hid : T ≠ id := fun he => hdrop (he ▸ rfl)
      exact hsame (by rw [wait?_setWork, if_neg hid])
  | starts hi =>
      -- a new task has a number of its own
      refine hsame ?_
      rw [wait?_spawn, if_neg (by rw [put_nextTask]; omega)]
      rfl
  | registers hc hs =>
      refine hsame ?_
      rw [wait?_spawn, if_neg (by rw [spawn_nextTask, put_nextTask]; omega), wait?_spawn,
        if_neg (by rw [put_nextTask]; omega)]
      rfl
  | @steps id work work' m s hw hg =>
      by_cases hid : id = T
      · subst hid
        have hwait : work.wait? = some (.call f) := by
          rw [wait?, hw] at hf
          exact hf
        obtain ⟨r, hr, hnext⟩ := hg.advances hwait
        have hnow : ((σ.put m s).setWork id work').wait? id = r.getLeft? := by
          rw [wait?_setWork, if_pos rfl, hnext]
        cases hr with
        | acts hnone hdue hin => exact .inl ⟨_, hnow, hlead⟩
        | @resumes _ reply _ hy hi =>
            cases reply with
            | error e => exact absurd ⟨e, hy⟩ (hfails f rfl hf)
            | ok reply =>
                have hc' : σ.member.isCancelled = false :=
                  (Member.alike_resume σ.member σ.now f.point (.ok reply)).isCancelled.symm.trans hc
                rcases Member.resume_of_leadsToScan hc' σ.now hlead reply with
                  ⟨q, hq, hlead'⟩ | hsync
                · rw [Continues, hq] at hi
                  obtain rfl := hi.eq_of_call
                  exact .inl ⟨_, hnow, hlead'⟩
                · exact .inr hsync
      · exact hsame (by rw [wait?_setWork, if_neg (Ne.symm hid), wait?_put])

end Scene

namespace Cluster

variable {p : String} {w T : Nat} {c : Cluster} {a : Act} {acts : List Act}

def Streams (p : String) (w : Nat) (c : Cluster) (_ : Act) : Prop := c.followed? p w ≠ none

def BeginsRound (p : String) (T : Nat) (c : Cluster) (a : Act) : Prop :=
  c.wait? p T = none ∧ ∃ x ∈ (c.act a).wait? p T, x.errand = .upkeep

/-- The task is not dropped, and none of its calls ends in a failure. -/
def CallsSucceed (p : String) (T : Nat) (c : Cluster) (a : Act) : Prop :=
  a ≠ .drop T ∧ (a = .step T → ∀ f ∈ c.flight? p T, ¬f.Fails c.now)

instance (p : String) (w : Nat) (c : Cluster) (a : Act) : Decidable (Streams p w c a) :=
  inferInstanceAs (Decidable (c.followed? p w ≠ none))

instance (p : String) (T : Nat) (c : Cluster) (a : Act) : Decidable (BeginsRound p T c a) :=
  decidable_of_iff
    ((c.wait? p T).isNone = true ∧ ∃ x ∈ (c.act a).wait? p T, x.errand = .upkeep)
    (by rw [BeginsRound, Option.isNone_iff_eq_none])

instance (p : String) (T : Nat) (c : Cluster) (a : Act) : Decidable (CallsSucceed p T c a) :=
  match a with
  | .drop id => decidable_of_iff (id ≠ T) (by simp [CallsSucceed])
  | .step id =>
    decidable_of_iff (id = T → ∀ f ∈ c.flight? p T, ¬f.Fails c.now) (by simp [CallsSucceed])
  | .pass ms => isTrue (by simp [CallsSucceed])
  | .use i op => isTrue (by simp [CallsSucceed])
  | .slow q k d => isTrue (by simp [CallsSucceed])
  | .join q P => isTrue (by simp [CallsSucceed])
  | .start q r => isTrue (by simp [CallsSucceed])
  | .register q => isTrue (by simp [CallsSucceed])
  | .feedIn q what => isTrue (by simp [CallsSucceed])
  | .useBus q op => isTrue (by simp [CallsSucceed])

theorem Streams.head (h : Along (Streams p w) c acts)
    (hend : (c.play acts).followed? p w ≠ none) : c.followed? p w ≠ none := by
  cases acts with
  | nil => exact hend
  | cons b acts => exact h.1

/-- As long as the stream lasts, so does the reading. -/
theorem reading_ne_none {R : Option Reading} (hR : R ≠ none)
    (hstreams : Along (Streams p w) c acts) (hend : (c.play acts).followed? p w ≠ none) :
    reading p w R c acts ≠ none := by
  induction acts generalizing c R with
  | nil => exact hR
  | cons a acts ih =>
      exact ih (Reading.observe_ne_none hR (Streams.head hstreams.2 hend) _) hstreams.2 hend

/-- A round of upkeep that begins while the stream is there has a reading in the end. -/
theorem Shows.reading_ne_none_or {σ : Scene} {R : Option Reading} (h : c.Shows p σ) (ht : c.Tidy)
    (hf : σ.Follows p w R) (hleft : Along (LeftAlone p w) c acts)
    (hstreams : Along (Streams p w) c acts) (hend : (c.play acts).followed? p w ≠ none)
    (hcalls : Along (CallsSucceed p T) c acts) (hs : (c.play acts).IsSane p)
    (hR : R ≠ none ∨ σ.AwaitsScan T) :
    reading p w R c acts ≠ none ∨ (c.play acts).wait? p T ≠ none := by
  induction acts generalizing c σ R with
  | nil =>
      refine hR.imp_right ?_
      rintro ⟨f, hf, -⟩
      rw [play_nil, h.wait?, hf]
      exact Option.some_ne_none _
  | cons a acts ih =>
      obtain ⟨σ₁, h₁, -⟩ := h.act ht hleft.1.join
      have hsane := h₁.isSane_of_play (ht.act a) hleft.2 hs
      obtain ⟨σ', h', hstep, hf'⟩ := h.follows_act ht hf hleft.1 hsane
      refine ih h' (ht.act a) hf' hleft.2 hstreams.2 hend hcalls.2 hs ?_
      -- a reading lasts as long as the stream, and a round without a failure comes to one
      rcases hR with hR | hT
      · exact .inl (Reading.observe_ne_none hR (Streams.head hstreams.2 hend) _)
      · obtain ⟨f, hwait, hlead⟩ := hT
        have hlt : T < σ.nextTask := by
          rw [← h.wait?] at hwait
          obtain ⟨t, htask, rfl, -, -⟩ := exists_task_of_wait? hwait
          rw [← h.nextTask]
          exact ht t htask
        have hfails (g : Flight) (ha : a = .step T) (hg : σ.wait? T = some (.call g)) :
            ¬g.Fails σ.now := by
          rw [← h.now]
          exact hcalls.1.2 ha g (mem_flight?_iff.2 ((h.wait? T).trans hg))
        rcases hstep.awaitsScan hf'.running hlt hcalls.1.1 hfails ⟨f, hwait, hlead⟩ with hT | hsync
        · exact .inr hT
        · obtain ⟨at_, hat⟩ := Option.ne_none_iff_exists'.1 hsync
          exact .inl (hf'.synced at_ hat)

/-- Behind a round of upkeep that began while there was a stream there is a reading, as long as the
stream lasts. -/
theorem Shows.reading_ne_none_of_round {σ : Scene} {R : Option Reading} {during rest : List Act}
    (h : c.Shows p σ) (ht : c.Tidy) (hf : σ.Follows p w R)
    (hleft : Along (LeftAlone p w) c (a :: (during ++ rest))) (hbegins : c.BeginsRound p T a)
    (hstreams : Along (Streams p w) c (a :: (during ++ rest)))
    (hcalls : Along (CallsSucceed p T) (c.act a) during)
    (hends : ((c.act a).play during).wait? p T = none)
    (hend : (((c.act a).play during).play rest).followed? p w ≠ none)
    (hs : (((c.act a).play during).play rest).IsSane p) :
    reading p w R c (a :: (during ++ rest)) ≠ none := by
  obtain ⟨hleft₁, hleft⟩ := hleft
  obtain ⟨hduring, hrest⟩ := along_append.1 hleft
  obtain ⟨hstreams₁, hstreams₂⟩ := along_append.1 hstreams.2
  have hmid : ((c.act a).play during).followed? p w ≠ none := Streams.head hstreams₂ hend
  -- what is well in the end was well all the time
  obtain ⟨σ₁, h₁, -⟩ := h.act ht hleft₁.join
  obtain ⟨ht₂, σ₂, h₂⟩ := h₁.play (ht.act a) hduring
  have hs₂ := h₂.isSane_of_play ht₂ hrest hs
  have hs₁ := h₁.isSane_of_play (ht.act a) hduring hs₂
  obtain ⟨σ', h', hstep, hf'⟩ := h.follows_act ht hf hleft₁ hs₁
  obtain ⟨hnone, x, hx, herrand⟩ := hbegins
  rw [h.wait?] at hnone
  rw [h'.wait?] at hx
  have hbegun : Reading.observe R (c.followed? p w) ((c.act a).followed? p w) (c.takesUp? p a) ≠
      none ∨ σ'.AwaitsScan T := by
    rcases hstep.begins_round hf'.running hnone hx herrand with hT | hsync
    · exact .inr hT
    · obtain ⟨at_, hat⟩ := Option.ne_none_iff_exists'.1 hsync
      exact .inl (hf'.synced at_ hat)
  change reading p w _ (c.act a) (during ++ rest) ≠ none
  rw [reading_append]
  refine reading_ne_none ?_ hstreams₂ hend
  rcases h'.reading_ne_none_or (ht.act a) hf' hduring hstreams₁ hmid hcalls hs₂ hbegun with hR | hT
  · exact hR
  · exact absurd hends hT

/-- The stream of a registered member may break any number of times. Once a round of upkeep that
began while there was a stream has ended, and as long as the stream does not break again: when all
events have been applied, the snapshot has the members of the store exactly if the last reading is
up to date. -/
theorem snapshot_sameMembers_iff_after_gap {before during rest : List Act} (h : c.Enrolled p w)
    (hleft : Along (LeftAlone p w) c (before ++ a :: (during ++ rest)))
    (hbegins : (c.play before).BeginsRound p T a)
    (hstreams : Along (Streams p w) (c.play before) (a :: (during ++ rest)))
    (hcalls : Along (CallsSucceed p T) ((c.play before).act a) during)
    (hends : (((c.play before).act a).play during).wait? p T = none) {t : Topology}
    (hup : (c.play (before ++ a :: (during ++ rest))).CaughtUp p w t) :
    ∃ r, reading p w none c (before ++ a :: (during ++ rest)) = some r ∧
      (t.sameMembers
          (Topology.ofScan ((c.play (before ++ a :: (during ++ rest))).storeOf p).nodes) = true ↔
        r.UpToDate ((c.play (before ++ a :: (during ++ rest))).storeOf p)) := by
  obtain ⟨htidy, σ, hσ, hf⟩ := h.follows
  obtain ⟨σ', hσ', hf'⟩ := hσ.follows_play htidy hf hleft hup.toIsSane
  obtain ⟨hbefore, hafter⟩ := along_append.1 hleft
  have hplay : c.play (before ++ a :: (during ++ rest)) =
      (((c.play before).act a).play during).play rest := by
    rw [play_append, play_cons, play_append]
  have hend : (c.play (before ++ a :: (during ++ rest))).followed? p w ≠ none := by
    rw [hup.applied]
    exact Option.some_ne_none _
  have hsane := hup.toIsSane
  have hread : reading p w none c (before ++ a :: (during ++ rest)) ≠ none := by
    obtain ⟨ht₁, σ₁, hσ₁⟩ := hσ.play htidy hbefore
    rw [play_append] at hsane
    obtain ⟨τ, hτ, hfτ⟩ :=
      hσ.follows_play htidy hf hbefore (hσ₁.isSane_of_play ht₁ hafter hsane)
    rw [← play_append, hplay] at hsane
    rw [hplay] at hend
    rw [reading_append]
    exact hτ.reading_ne_none_of_round ht₁ hfτ hafter hbegins hstreams hcalls hends hend hsane
  obtain ⟨r, hr⟩ := Option.ne_none_iff_exists'.1 hread
  rw [hr] at hf'
  exact ⟨r, hr, hup.sameMembers_iff hσ' hf'⟩

/-- The first member of a cluster; it waits for one and a half seconds before it subscribes again,
and none of its calls takes any time. -/
def retrying : Cluster :=
  (({} : Cluster).act (.join "m" ⟨.new 16 .block, .leased {
    member := {
      node := slowReader.member.node
      settings := { retryBackoff := 1500 } }
    store := 0 }⟩)).act (.register "m")

/-- The stream breaks, and before there is a new one the member reads the store and another node
comes. -/
def missedInGap : List Act :=
  streamFirst ++ [.pass 500, .feedIn "m" .failure, .step 1, .pass 500] ++
    List.replicate 10 (.step 0) ++
    [.pass 500, .use 0 (.put newcomer.path newcomer.encode none), .pass 500,
      .step 1, .step 1, .step 1]

def roundLater : List Act := missedInGap ++ .step 0 :: ([.step 0, .step 0] ++ [.pass 500])

theorem enrolled_retrying : retrying.Enrolled "m" 1 := ⟨_, fresh_join rfl rfl rfl rfl _, rfl, rfl⟩

theorem snapshot_sameMembers_iff_after_gap_missed :
    retrying.Enrolled "m" 1 ∧ Along (LeftAlone "m" 1) retrying roundLater ∧
      (retrying.play missedInGap).BeginsRound "m" 0 (.step 0) ∧
      ∃ r, reading "m" 1 none retrying roundLater = some r ∧
        (ownNodeOnly.sameMembers
            (Topology.ofScan ((retrying.play roundLater).storeOf "m").nodes) = true ↔
          r.UpToDate ((retrying.play roundLater).storeOf "m")) := by
  have hleft : Along (LeftAlone "m" 1) retrying roundLater := by decide +kernel
  have hbegins : (retrying.play missedInGap).BeginsRound "m" 0 (.step 0) := by decide +kernel
  refine ⟨enrolled_retrying, hleft, hbegins, ?_⟩
  exact snapshot_sameMembers_iff_after_gap enrolled_retrying hleft hbegins (by decide +kernel)
    (by decide +kernel) (by decide +kernel) (by decide +kernel)

/-- The stream is there again and a whole round of upkeep has passed since, all calls have succeeded
at once and all events have been applied, but the new node is missing. -/
theorem snapshot_missedInGap :
    retrying.Enrolled "m" 1 ∧ Along (LeftAlone "m" 1) retrying roundLater ∧
      Along (CallsSucceed "m" 0) retrying roundLater ∧
      (retrying.play missedInGap).BeginsRound "m" 0 (.step 0) ∧
      Along (Streams "m" 1) (retrying.play missedInGap)
        (.step 0 :: ([.step 0, .step 0] ++ [.pass 500])) ∧
      (retrying.play roundLater).wait? "m" 0 = none ∧
      (retrying.play roundLater).CaughtUp "m" 1 ownNodeOnly ∧
      ownNodeOnly.sameMembers
        (Topology.ofScan ((retrying.play roundLater).storeOf "m").nodes) = false :=
  ⟨enrolled_retrying, by decide +kernel⟩

end Cluster

end ServiceMesh
