import ServiceMesh.Proofs.Cluster.Clients
import ServiceMesh.Proofs.Lease.Announced

/-!
Who follows a member. A task that follows the bus of a party takes one signal at a time and
refreshes its client. In every run of a cluster, such a client agrees with the directory of the
member as soon as no notification of the party is under way and no signal is left in the inbox.
-/

namespace ServiceMesh

namespace Cluster

variable {c c' d : Cluster} {p q : String} {l : Leased} {i : Nat} {who : Follower} {σ : Scene}
  {a : Act} {acts : List Act}

/-! ### Steps -/

/-- A notification that is not complete goes on where it stopped. -/
theorem stepTask_notice {t : Task} {n n' : Notification} {point : NoticePoint}
    (hp : t.work.party = p) (hw : t.work.wait? = some (.notice n point))
    (h : c.stepTask t = some c') (hn : ((c.bus p).advance n).2 = some n') :
    c'.wait? p t.id = some (.notice n' point) := by
  have hwait {r : Cluster × (Wait ⊕ Except Failure Unit)}
      (hr : c.stepWait p (.notice n point) = some r) : r.2 = .inl (.notice n' point) := by
    rw [stepWait] at hr
    split at hr
    · next b k hb =>
        rw [hb] at hn
        obtain rfl := Option.some.inj hn
        split at hr
        · cases hr
        · obtain rfl := Option.some.inj hr
          rfl
    · next b hb =>
        rw [hb] at hn
        cases hn
  obtain ⟨id, work⟩ := t
  cases work with
  | routine q w =>
      obtain rfl : q = p := hp
      obtain rfl := Option.some.inj hw
      rw [stepTask] at h
      dsimp only at h
      split at h
      · cases h
      · next hs =>
          obtain rfl := Option.some.inj h
          rw [wait?_setTask_self _ id (by simp [Work.party])]
          exact congrArg some (Sum.inl.inj (hwait hs))
      · next hs => cases hwait hs
  | keepAlive q loop =>
      obtain rfl : q = p := hp
      obtain ⟨r, hr, rfl⟩ := Option.map_eq_some_iff.1 h
      cases loop with
      | ticking w =>
          obtain rfl := Option.some.inj hw
          obtain ⟨s, hs, he⟩ := Option.bind_eq_some_iff.1 hr
          obtain rfl := Option.some.inj he
          rw [wait?_setTask_self _ id (stepKeepAlive_eq_some hr).1, hwait hs]
          rfl
      | _ => cases hw
  | watch q loop =>
      obtain rfl : q = p := hp
      obtain ⟨r, hr, rfl⟩ := Option.map_eq_some_iff.1 h
      cases loop with
      | applying feed injected w =>
          obtain rfl := Option.some.inj hw
          rw [wait?_setTask_self _ id (party_of_stepWatch hr)]
          obtain ⟨⟨e, s⟩, hs, he⟩ := Option.bind_eq_some_iff.1 hr
          obtain rfl : s = .inl (.notice n' point) := hwait hs
          obtain rfl := Option.some.inj he
          rfl
      | _ => cases hw
  | follow q sink who => cases hw

end Cluster

/-! ### Acts -/

namespace Scene

variable {σ σ' : Scene} {p : String} {a : Cluster.Act}

/-- What a task waits for stays, unless the task goes on or is given up. -/
theorem Step.wait?_of_ne (h : σ.Step p a σ') {id : Nat} (hid : id < σ.nextTask)
    (hstep : a ≠ .step id) (hdrop : a ≠ .drop id) : σ'.wait? id = σ.wait? id := by
  cases h with
  | elsewhere hsp hother => rw [Scene.wait?, hsp.work, Scene.wait?]
  | waits hw hidle => rfl
  | @steps j w w' m s hw hg =>
      rw [wait?_setWork, wait?_put, if_neg]
      rintro rfl
      exact hstep rfl
  | slows k d => rfl
  | starts hc =>
      rw [wait?_spawn, wait?_put, if_neg]
      exact Nat.ne_of_lt hid
  | startsAndEnds hc => rfl
  | registers hc hs =>
      rw [wait?_spawn, wait?_spawn, wait?_put, if_neg, if_neg]
      · exact Nat.ne_of_lt hid
      · exact Nat.ne_of_lt (Nat.lt_succ_of_lt hid)
  | drops j =>
      rw [wait?_setWork, if_neg]
      rintro rfl
      exact hdrop rfl
  | feedsIn what => exact wait?_feedIn σ what id

/-- No act makes a follower. -/
theorem Step.work_follow (h : σ.Step p a σ') {id i : Nat} {who : Follower}
    (hw : σ'.work id = some (.follow p i who)) : σ.work id = some (.follow p i who) := by
  cases h with
  | elsewhere hsp hother => rwa [hsp.work] at hw
  | waits _ hidle => exact hw
  | @steps j w w' m s hj hg =>
      rw [setWork_work] at hw
      split at hw
      · next he =>
          subst he hw
          cases hg with
          | follows hsame =>
              rw [hj, hsame _ rfl]
      · exact hw
  | slows k d => exact hw
  | starts hc =>
      rw [spawn_work] at hw
      split at hw
      · cases hw
      · exact hw
  | startsAndEnds hc => exact hw
  | registers hc hs =>
      rw [spawn_work, spawn_work] at hw
      split at hw
      · cases hw
      · split at hw
        · cases hw
        · exact hw
  | drops j =>
      rw [setWork_work] at hw
      split at hw
      · cases hw
      · exact hw
  | feedsIn what =>
      obtain ⟨w, hw₀, he⟩ := Option.map_eq_some_iff.1 hw
      rw [hw₀]
      cases w with
      | watch q loop => cases he
      | _ => exact congrArg some he

end Scene

namespace Cluster

variable {c c' d : Cluster} {p q : String} {l : Leased} {i : Nat} {who : Follower} {σ : Scene}
  {a : Act} {acts : List Act}

/-- A notification that is under way stays so, unless its task goes on or is given up. -/
theorem Shows.wait?_act (h : c.Shows p σ) (ht : c.Tidy) (ha : ∀ P, a ≠ .join p P) {id : Nat}
    {w : Wait} (hw : c.wait? p id = some w) (hstep : a ≠ .step id) (hdrop : a ≠ .drop id) :
    (c.act a).wait? p id = some w := by
  obtain ⟨σ', h', hact⟩ := h.act ht ha
  obtain ⟨t, htask, rfl, -⟩ := exists_task_of_wait? hw
  have hid : t.id < σ.nextTask := h.nextTask ▸ ht t htask
  rw [h'.wait?, hact.wait?_of_ne hid hstep hdrop, ← h.wait?, hw]

/-! ### What is kept for each follower -/

/-- A signal waits in an inbox of a party, or a notification is to bring one. -/
def Signals (p : String) (i : Nat) (c : Cluster) : Prop :=
  0 < (c.bus p).queued i ∨ ∃ id n point, c.wait? p id = some (.notice n point) ∧ i ∈ n.rest

def IsQuiet (p : String) (c : Cluster) : Prop :=
  ∀ id n point, c.wait? p id ≠ some (.notice n point)

/-- What is true at all times of an inbox from which a follower takes its signals. -/
structure Heeds (p : String) (i : Nat) (who : Follower) (c : Cluster) : Prop where
  isRead : (c.bus p).IsRead i
  only : ∀ id who', c.work? p id = some (.follow p i who') → who' = who
  owns : c.Owns p who
  /-- No change is missed. -/
  alert : c.InSync p who ∨ c.Signals p i

/-- An act that keeps to the rules: the party stays and does not give its snapshot up, what is being
told is told to the end, and nobody else takes signals out of the inbox or closes it. -/
structure Fair (p : String) (i : Nat) (c : Cluster) (a : Act) : Prop where
  stays : Stays p c a
  keeps : ¬c.GivesUp p a
  tells : ∀ id, a = .drop id → ∀ n point, c.wait? p id ≠ some (.notice n point)
  leaves : ∀ op, a = .useBus p op → (∀ limit, op ≠ .drain i limit) ∧ op ≠ .close i

theorem Owns.congr (h : c.Owns p who) (hp : d.pools = c.pools) (hb : d.builders = c.builders)
    (hr : d.resolvers = c.resolvers) : d.Owns p who := by
  cases who with
  | slot name => trivial
  | pool name => exact fun P hP => h P (hp ▸ hP)
  | builder name => exact fun B hB r hr' R hR => h B (hb ▸ hB) r hr' R (hr ▸ hR)

theorem InSync.congr (h : c.InSync p who) (hd : d.directory p = c.directory p)
    (hp : d.pools = c.pools) (hb : d.builders = c.builders) (hr : d.resolvers = c.resolvers) :
    d.InSync p who := by
  cases who with
  | slot name => trivial
  | pool name => exact fun P hP => hd ▸ h P (hp ▸ hP)
  | builder name => exact fun B hB r hr' R hR => hd ▸ h B (hb ▸ hB) r hr' R (hr ▸ hR)

/-- A follower that was informed is informed still, as long as look-ups come out as before. -/
structure Informs (p : String) (i : Nat) (who : Follower) (c d : Cluster) : Prop where
  isRead : (d.bus p).IsRead i
  owns : d.Owns p who
  alert : d.directory p = c.directory p → c.InSync p who ∨ c.Signals p i →
    d.InSync p who ∨ d.Signals p i

theorem Heeds.informs_self (h : c.Heeds p i who) : c.Informs p i who c :=
  ⟨h.isRead, h.owns, fun _ => id⟩

/-- The inbox is read as before, and a notification that was to bring a signal still does or has
done so. -/
theorem Heeds.informs_of_moves {b : Bus} (h : c.Heeds p i who) (hm : Moves p b c d)
    (hr : b.IsRead i) (hq : (c.bus p).queued i ≤ b.queued i)
    (hn : ∀ id n point, c.wait? p id = some (.notice n point) → i ∈ n.rest → d.Signals p i) :
    c.Informs p i who d where
  isRead := hm.bus ▸ hr
  owns := h.owns.congr hm.pools hm.builders hm.resolvers
  alert hd := by
    rintro (hin | hpos | ⟨id, n, point, hw, hi⟩)
    · exact .inl (hin.congr hd hm.pools hm.builders hm.resolvers)
    · exact .inr (.inl (hm.bus ▸ Nat.lt_of_lt_of_le hpos hq))
    · exact .inr (hn id n point hw hi)

theorem busAfter_isRead (h : (c.bus p).IsRead i) (q : String) (w : Option Wait) :
    (c.busAfter p q w).IsRead i ∧ (c.bus p).queued i ≤ (c.busAfter p q w).queued i := by
  have hsame : (c.bus p).IsRead i ∧ (c.bus p).queued i ≤ (c.bus p).queued i := ⟨h, Nat.le_refl _⟩
  cases w with
  | none => exact hsame
  | some w =>
      cases w with
      | call f => exact hsame
      | notice n point =>
          rw [busAfter]
          split
          · obtain ⟨hr, hq, -⟩ := h.advance n
            exact ⟨hr, hq⟩
          · exact hsame

/-- A follower takes a signal and refreshes its client; if it is another one, nothing is lost. -/
theorem Heeds.informs_refresh (h : c.Heeds p i who) (hl : c.leased? p = some l) {q : String}
    {j : Nat} {who' : Follower} (hsame : q = p → j = i → who' = who)
    (hbus : d.bus p = (c.setBus q ((c.bus q).drain j 1).1).bus p)
    (hd : (c.setBus q ((c.bus q).drain j 1).1).Refreshed who' d)
    (hn : ∀ id n point, c.wait? p id = some (.notice n point) → i ∈ n.rest → d.Signals p i) :
    c.Informs p i who d := by
  have hmoves := setBus_moves (c := c) (q := q) (b := ((c.bus q).drain j 1).1) (p := p) rfl
  have howns := h.owns.congr hmoves.pools hmoves.builders hmoves.resolvers
  by_cases hown : q = p ∧ j = i
  · obtain ⟨rfl, rfl⟩ := hown
    obtain rfl := hsame rfl rfl
    have hread : (d.bus q).IsRead j := by
      rw [hbus, bus_setBus_self hl]
      exact h.isRead.drain 1
    exact ⟨hread, hd.owns howns, fun _ _ => .inl (hd.inSync howns)⟩
  · have hsink : (d.bus p).sink? i = (c.bus p).sink? i := by
      rw [hbus]
      by_cases hq : q = p
      · subst hq
        rw [bus_setBus_self hl]
        exact Bus.sink?_drain_of_ne (fun hj => hown ⟨rfl, hj.symm⟩) _ 1
      · rw [bus_setBus_of_ne (Ne.symm hq)]
    refine ⟨h.isRead.congr hsink, hd.owns howns, fun _ => ?_⟩
    rintro (hin | hpos | ⟨k, n, point, hk, hi⟩)
    · have hdir := directory_of_same hl (leased?_setBus c q ((c.bus q).drain j 1).1 p)
      exact .inl (hd.inSync_of_inSync howns
        (hin.congr hdir hmoves.pools hmoves.builders hmoves.resolvers))
    · exact .inr (.inl (Bus.queued_congr hsink ▸ hpos))
    · exact .inr (hn k n point hk hi)

theorem work_of_wait? {t : Task} (htask : c.task? t.id = some t) {w : Wait}
    (hw : c.wait? p t.id = some w) : t.work.party = p ∧ t.work.wait? = some w := by
  obtain ⟨work, hwork, hwait⟩ := Option.bind_eq_some_iff.1 hw
  obtain ⟨htask', hparty⟩ := work?_eq_some_iff.1 hwork
  obtain rfl : t.work = work := congrArg Task.work (Option.some.inj (htask.symm.trans htask'))
  exact ⟨hparty, hwait⟩

theorem Heeds.informs_step (h : c.Heeds p i who) (hσ : c.Shows p σ) (ht : c.Tidy) {t : Task}
    (htask : c.task? t.id = some t) (hs : c.stepTask t = some c') : c.Informs p i who c' := by
  have hact : c.act (.step t.id) = c' := by
    rw [Cluster.act, htask]
    exact congrArg (·.getD c) hs
  have hkept {j : Nat} {n : Notification} {point : NoticePoint} (hj : j ≠ t.id)
      (hw : c.wait? p j = some (.notice n point)) (hi : i ∈ n.rest) : c'.Signals p i := by
    refine .inr ⟨j, n, point, ?_, hi⟩
    rw [← hact]
    exact hσ.wait?_act ht (by rintro P ⟨⟩) hw (by rintro ⟨⟩; exact hj rfl) (by rintro ⟨⟩)
  obtain ⟨id, work⟩ := t
  by_cases hf : ∃ q j who', work = .follow q j who'
  · obtain ⟨q, j, who', rfl⟩ := hf
    have htells (k : Nat) (n : Notification) (point : NoticePoint)
        (hk : c.wait? p k = some (.notice n point)) : i ∈ n.rest → c'.Signals p i := by
      refine hkept ?_ hk
      rintro rfl
      cases (work_of_wait? htask hk).2
    obtain ⟨r, hr, rfl⟩ := Option.map_eq_some_iff.1 hs
    rcases stepFollow_eq_some hr with rfl | rfl
    · exact h.informs_of_moves ((Moves.refl p c).setTask id none) h.isRead (Nat.le_refl _) htells
    · obtain ⟨h₁, h₂, h₃, h₄⟩ := refreshed_refresh (c.setBus q ((c.bus q).drain j 1).1) who'
      refine h.informs_refresh hσ.leased (fun hq hj => ?_) (bus_of_parties h₁ p)
        ⟨h₁, h₂, h₃, h₄⟩ htells
      subst hq hj
      exact h.only id who' (work?_eq_some_iff.2 ⟨htask, rfl⟩)
  · have hmoves := stepTask_moves hσ.leased hs fun q j who' hw => hf ⟨q, j, who', hw⟩
    obtain ⟨hr, hq⟩ := busAfter_isRead h.isRead work.party work.wait?
    refine h.informs_of_moves hmoves hr hq fun j n point hw hi => ?_
    by_cases hj : j = id
    · subst hj
      -- the task that goes on is the one that tells
      obtain ⟨hparty, hwait⟩ := work_of_wait? htask hw
      have hbus := hmoves.bus
      rw [hwait, busAfter, if_pos hparty] at hbus
      obtain ⟨-, -, hreach⟩ := h.isRead.advance n
      rcases hreach hi with hpos | ⟨n', hn', hi'⟩
      · exact .inl (hbus ▸ hpos)
      · exact .inr ⟨j, n', point, stepTask_notice hparty hwait hs hn', hi'⟩
    · exact hkept hj hw hi

theorem Heeds.informs_act (h : c.Heeds p i who) (hσ : c.Shows p σ) (ht : c.Tidy)
    (ha : c.Fair p i a) : c.Informs p i who (c.act a) := by
  have hkept (hstep : ∀ id, a ≠ .step id) (id : Nat) (n : Notification) (point : NoticePoint)
      (hw : c.wait? p id = some (.notice n point)) (hi : i ∈ n.rest) : (c.act a).Signals p i := by
    refine .inr ⟨id, n, point, hσ.wait?_act ht ha.stays hw (hstep id) ?_, hi⟩
    rintro rfl
    exact ha.tells id rfl n point hw
  by_cases hstep : ∃ id, a = .step id
  · obtain ⟨id, rfl⟩ := hstep
    rw [Cluster.act]
    split
    · next t htask =>
        obtain rfl := id_of_task? htask
        cases hs : c.stepTask t with
        | none => exact h.informs_self
        | some c' => exact h.informs_step hσ ht htask hs
    · exact h.informs_self
  · have hkept := hkept fun id he => hstep ⟨id, he⟩
    by_cases hbus : ∃ op, a = .useBus p op
    · obtain ⟨op, rfl⟩ := hbus
      have hsink : (op.run (c.bus p)).sink? i = (c.bus p).sink? i := by
        obtain ⟨hdrain, hclose⟩ := ha.leaves op rfl
        cases op with
        | subscribe => exact h.isRead.sink?_addWatcher _
        | drain j limit =>
            refine Bus.sink?_drain_of_ne ?_ _ limit
            rintro rfl
            exact hdrain limit rfl
        | close j =>
            refine Bus.sink?_close_of_ne ?_ _
            rintro rfl
            exact hclose rfl
      exact h.informs_of_moves (useBus_moves hσ.leased op) (h.isRead.congr hsink)
        (Nat.le_of_eq (Bus.queued_congr hsink).symm) hkept
    · exact h.informs_of_moves
        (act_moves ha.stays (fun id he => hstep ⟨id, he⟩) fun op he => hbus ⟨op, he⟩)
        h.isRead (Nat.le_refl _) hkept

theorem Heeds.act (h : c.Heeds p i who) (hσ : c.Shows p σ) (ht : c.Tidy) (hp : σ.member.IsProper)
    (ha : c.Fair p i a) : (c.act a).Heeds p i who := by
  obtain ⟨hread, howns, halert⟩ := h.informs_act hσ ht ha
  obtain ⟨σ', h', hact⟩ := hσ.act ht ha.stays
  refine ⟨hread, fun id who' hw => ?_, howns, ?_⟩
  · refine h.only id who' ?_
    rw [hσ.work]
    exact hact.work_follow ((h'.work id).symm.trans hw)
  · by_cases hne : (c.act a).directory p = c.directory p
    · exact halert hne h.alert
    · obtain ⟨id, -, point, hw⟩ := hσ.announces_of_directory_ne ht hp ha.stays hne ha.keeps
      exact .inr (.inr ⟨id, _, point, hw, hread.mem_announce⟩)

theorem Heeds.play (h : c.Heeds p i who) (hσ : c.Shows p σ) (ht : c.Tidy) (hp : σ.member.IsProper)
    (ha : Along (Fair p i) c acts) : (c.play acts).Heeds p i who := by
  induction acts generalizing c σ with
  | nil => exact h
  | cons a acts ih =>
      obtain ⟨σ', h', hact⟩ := hσ.act ht ha.1.stays
      exact ih (h.act hσ ht hp ha.1) h' (ht.act a) (hact.knows Topology.isKept_proper hp) ha.2

/-- Unless the party gives up, no follower of it misses a change: when nothing is being told and its
inbox is empty, its client agrees with the directory. -/
theorem inSync_of_isQuiet (hnew : c.New p) (h : c.Heeds p i who) (ha : Along (Fair p i) c acts)
    (hquiet : (c.play acts).IsQuiet p) (hempty : ((c.play acts).bus p).queued i = 0) :
    (c.play acts).InSync p who := by
  obtain ⟨σ, hσ⟩ := hnew.hasMember.shows
  have hproper : σ.member.IsProper := by
    rw [hnew.member σ.member hσ.member?]
    exact Member.isProper_of_snapshot_eq_none rfl
  rcases (h.play hσ hnew.tidy hproper ha).alert with hin | hpos | ⟨id, n, point, hw, -⟩
  · exact hin
  · exact absurd hempty (Nat.ne_of_gt hpos)
  · exact absurd hw (hquiet id n point)

/-- A follower that subscribes and then refreshes its client once, as `keepSynced` does, has missed
nothing. -/
theorem heeds_follow (hl : c.leased? p = some l) (ht : c.Tidy) (hn : (c.bus p).Numbered)
    (hc : 0 < (c.bus p).capacity) (ho : c.Owns p who)
    (hfree : ∀ id who', c.work? p id ≠ some (.follow p (c.bus p).nextId who')) :
    ((c.follow p who).refresh who).Heeds p (c.bus p).nextId who := by
  have hmoves := setBus_moves (c := c) (bus_setBus_self hl (c.bus p).subscribe.1)
  have hfollow : (c.follow p who).Owns p who :=
    ho.congr hmoves.pools hmoves.builders hmoves.resolvers
  have hrefreshed := refreshed_refresh (c.follow p who) who
  refine ⟨?_, fun id who' hw => ?_, hrefreshed.owns hfollow, .inl (hrefreshed.inSync hfollow)⟩
  · rw [bus_of_parties hrefreshed.parties p]
    change ((c.setBus p (c.bus p).subscribe.1).bus p).IsRead (c.bus p).nextId
    rw [hmoves.bus]
    exact hn.isRead_addWatcher hc
  · rw [work?_of_tasks (alike_refresh (c.follow p who) who).tasks] at hw
    have htidy : (c.setBus p (c.bus p).subscribe.1).Tidy :=
      ht.of_eq (setBus_tasks c p _) (setBus_nextTask c p _)
    change ((c.setBus p (c.bus p).subscribe.1).spawn
      (.follow p (c.bus p).nextId who)).1.work? p id = _ at hw
    rw [work?_spawn htidy] at hw
    split at hw
    · rw [Work.party, if_pos rfl] at hw
      cases hw
      rfl
    · rw [work?_of_tasks (setBus_tasks c p _)] at hw
      exact absurd hw (hfree id who')

theorem New.of_follow (h : c.New p) (who : Follower) : ((c.follow p who).refresh who).New p := by
  have hset : (c.setBus p (c.bus p).subscribe.1).Tidy :=
    h.tidy.of_eq (setBus_tasks c p _) (setBus_nextTask c p _)
  have halike := alike_refresh (c.follow p who) who
  have hl : ((c.follow p who).refresh who).leased? p = c.leased? p :=
    (halike.leased? p).trans (leased?_setBus c p _ p)
  have hm : ((c.follow p who).refresh who).member? p = c.member? p := by
    rw [member?, hl, member?]
  refine ⟨(hset.spawn _).of_eq halike.tasks halike.nextTask, ?_, ?_, fun t ht hp => ?_⟩
  · obtain ⟨l, hl', hs⟩ := h.hasMember
    refine ⟨l, hl.trans hl', ?_⟩
    rw [halike.stores]
    change l.store < (c.setBus p (c.bus p).subscribe.1).stores.length
    rwa [setBus_stores]
  · rw [hm]
    exact h.member
  · rw [halike.tasks] at ht
    rcases List.mem_append.1 ht with ht | ht
    · rw [setBus_tasks] at ht
      exact h.tasks t ht hp
    · obtain rfl := List.mem_singleton.1 ht
      exact ⟨_, who, rfl⟩

/-- So a pool or a builder that is kept up to date in this way agrees with the directory of a new
member whenever there is nothing left to be done. -/
theorem inSync_of_follow (hnew : c.New p) (hn : (c.bus p).Numbered) (hc : 0 < (c.bus p).capacity)
    (ho : c.Owns p who) (hfree : ∀ id who', c.work? p id ≠ some (.follow p (c.bus p).nextId who'))
    (ha : Along (Fair p (c.bus p).nextId) ((c.follow p who).refresh who) acts)
    (hquiet : (((c.follow p who).refresh who).play acts).IsQuiet p)
    (hempty : ((((c.follow p who).refresh who).play acts).bus p).queued (c.bus p).nextId = 0) :
    (((c.follow p who).refresh who).play acts).InSync p who := by
  obtain ⟨l, hl, -⟩ := hnew.hasMember
  exact inSync_of_isQuiet (hnew.of_follow who) (heeds_follow hl hnew.tidy hn hc ho hfree) ha
    hquiet hempty

end Cluster

end ServiceMesh
