import ServiceMesh.Proofs.Cluster.Clients
import ServiceMesh.Proofs.Cluster.Settling

/-!
How long a withdrawal takes. It asks the store to delete the record, and at the deadline of that
call at the latest it goes on. Then it tells every watcher of the party, which only an inbox without
room can hold up. So a withdrawal that does not come back has met such an inbox on its way, and it
is still telling.
-/

namespace ServiceMesh

namespace Bus

variable {b b' : Bus} {n n' : Notification}

/-- Under `block`, the notification has come to an open inbox that has no room. -/
def Blocks (b : Bus) (n : Notification) : Prop :=
  b.policy = .block ∧
    ∃ i ∈ n.rest.head?, ∃ s ∈ b.sink? i, s.isOpen = true ∧ s.capacity ≤ s.queued

theorem deliver_eq_some {met : Bool} {ids : List Nat}
    (h : b.deliver met ids = (b', some n')) :
    b'.Blocks n' ∧ n'.rest.length ≤ ids.length ∧ (n'.rest.length = ids.length → b' = b) := by
  -- whoever has been served is not among the rest
  have hfurther {b : Bus} {i : Nat} {rest : List Nat}
      (ih : b'.Blocks n' ∧ n'.rest.length ≤ rest.length ∧
        (n'.rest.length = rest.length → b' = b)) (b₀ : Bus) :
      b'.Blocks n' ∧ n'.rest.length ≤ (i :: rest).length ∧
        (n'.rest.length = (i :: rest).length → b' = b₀) := by
    obtain ⟨hb, hle, -⟩ := ih
    refine ⟨hb, Nat.le_succ_of_le hle, fun he => ?_⟩
    rw [List.length_cons] at he
    omega
  induction ids generalizing b met with
  | nil => cases (Prod.mk.inj h).2
  | cons i rest ih =>
      rw [deliver] at h
      cases hs : b.sink? i with
      | none =>
          rw [hs] at h
          exact hfurther (ih h) b
      | some s =>
          rw [hs] at h
          dsimp only at h
          split at h
          · exact hfurther (ih h) b
          · next hopen =>
              split at h
              · exact hfurther (ih h) b
              · next hfull =>
                  split at h
                  · next hpolicy =>
                      obtain ⟨rfl, hn⟩ := Prod.mk.inj h
                      obtain rfl := Option.some.inj hn
                      exact ⟨⟨hpolicy, i, rfl, s, hs, not_not.1 hopen, by omega⟩, Nat.le_refl _,
                        fun _ => rfl⟩
                  · exact hfurther (ih h) b

/-- A notification that is not complete stands at an inbox without room. -/
theorem blocks_of_advance (h : b.advance n = (b', some n')) : b'.Blocks n' :=
  (deliver_eq_some h).1

theorem blocks_of_advance_self (h : b.advance n = (b', some n)) : b.Blocks n := by
  obtain ⟨hb, -, hsame⟩ := deliver_eq_some h
  exact hsame rfl ▸ hb

end Bus

namespace Cluster

variable {c d : Cluster} {p q : String} {id T : Nat} {t : Task}

/-! ### Outcomes -/

theorem outcomes_setMember (c : Cluster) (q : String) (m : Member) :
    (c.setMember q m).outcomes = c.outcomes := by
  obtain ⟨ps, hps⟩ := exists_setMember_eq c q m
  rw [hps]

theorem outcomes_setBus (c : Cluster) (q : String) (b : Bus) :
    (c.setBus q b).outcomes = c.outcomes := by
  obtain ⟨ps, hps⟩ := exists_setBus_eq c q b
  rw [hps]

theorem outcomes_stepFlight {f : Flight} {r : Cluster × (Wait ⊕ Except Failure Unit)}
    (hr : c.stepFlight q f = some r) : r.1.outcomes = c.outcomes := by
  rw [stepFlight] at hr
  obtain ⟨l, -, hr⟩ := Option.bind_eq_some_iff.1 hr
  split at hr <;> split at hr
  · obtain rfl := Option.some.inj hr
    rfl
  · split at hr
    · obtain rfl := Option.some.inj hr
      exact outcomes_setMember c q _
    · cases hr
  · obtain rfl := Option.some.inj hr
    exact outcomes_setMember c q _
  · split at hr
    · obtain rfl := Option.some.inj hr
      exact outcomes_setMember c q _
    · cases hr

theorem outcomes_stepWait {w : Wait} {r : Cluster × (Wait ⊕ Except Failure Unit)}
    (hr : c.stepWait q w = some r) : r.1.outcomes = c.outcomes := by
  cases w with
  | call f => exact outcomes_stepFlight hr
  | notice n point =>
      rw [stepWait] at hr
      split at hr
      · split at hr
        · cases hr
        · obtain rfl := Option.some.inj hr
          exact outcomes_setBus c q _
      · dsimp only at hr
        split at hr
        · obtain rfl := Option.some.inj hr
          exact (outcomes_setMember _ q _).trans (outcomes_setBus c q _)
        · obtain rfl := Option.some.inj hr
          exact outcomes_setBus c q _

theorem outcomes_watchBroke (c : Cluster) (q : String) :
    (c.watchBroke q).1.outcomes = c.outcomes := by
  rw [watchBroke]
  split
  · exact outcomes_setMember c q _
  · rfl

theorem outcomes_applyBatch (c : Cluster) (q : String) (feed : Feed) (injected : List Injection)
    (events : List Event) : (c.applyBatch q feed injected events).1.outcomes = c.outcomes := by
  rw [applyBatch]
  split
  · next m _ =>
      have hset := outcomes_setMember c q (m.applyEvents events).1
      split
      · next hw => exact (Prod.mk.inj hw).1 ▸ hset
      · next hw => exact (Prod.mk.inj hw).1 ▸ hset
  · rfl

theorem outcomes_refresh (c : Cluster) (who : Follower) :
    (c.refresh who).outcomes = c.outcomes := by
  have hpush (ids : List String) (c : Cluster) : (ids.foldl push c).outcomes = c.outcomes := by
    induction ids generalizing c with
    | nil => rfl
    | cons id ids ih =>
        rw [List.foldl_cons, ih, push]
        split <;> rfl
  cases who with
  | slot id =>
      rw [refresh, rebuildSlot]
      split <;> rfl
  | builder id =>
      rw [refresh, notifyResolvers_eq]
      split
      · rfl
      · exact hpush _ _
  | pool id =>
      rw [refresh, syncPool]
      split <;> rfl

theorem outcomes_stepFollow {sink : Nat} {who : Follower} {r : Cluster × Option Work}
    (hr : c.stepFollow q sink who = some r) : r.1.outcomes = c.outcomes := by
  rw [stepFollow] at hr
  split at hr
  · obtain rfl := Option.some.inj hr
    rfl
  · split at hr
    · obtain rfl := Option.some.inj hr
      exact (outcomes_refresh _ who).trans (outcomes_setBus c q _)
    · cases hr

/-- A step leaves the outcomes as they are, or adds that of its own task. -/
theorem outcomes_stepTask (h : c.stepTask t = some d) :
    d.outcomes = c.outcomes ∨ ∃ r, d.outcomes = (t.id, r) :: c.outcomes := by
  obtain ⟨id, work⟩ := t
  cases work with
  | routine q w =>
      rw [stepTask] at h
      dsimp only at h
      split at h
      · cases h
      · next hs =>
          obtain rfl := Option.some.inj h
          exact .inl (outcomes_stepWait hs)
      · next e r hs =>
          obtain rfl := Option.some.inj h
          exact .inr ⟨r, congrArg _ (outcomes_stepWait hs)⟩
  | keepAlive q loop =>
      obtain ⟨r, hr, rfl⟩ := Option.map_eq_some_iff.1 h
      suffices hsame : r.1.outcomes = c.outcomes from .inl hsame
      obtain he | ⟨w, s, rfl, -⟩ := (stepKeepAlive_eq_some hr).2
      · exact congrArg Cluster.outcomes he
      · obtain ⟨s, hs, he⟩ := Option.bind_eq_some_iff.1 hr
        obtain rfl := Option.some.inj he
        exact outcomes_stepWait hs
  | watch q loop =>
      obtain ⟨r, hr, rfl⟩ := Option.map_eq_some_iff.1 h
      suffices hsame : r.1.outcomes = c.outcomes from .inl hsame
      obtain ⟨he, -⟩ | rfl | ⟨_, _, read, rest, events, -, rfl⟩ | ⟨_, _, w, s, rfl, -⟩ :=
        stepWatch_eq_some hr
      · exact congrArg Cluster.outcomes he
      · exact outcomes_watchBroke c q
      · exact outcomes_applyBatch c q read rest events
      · obtain ⟨s, hs, he⟩ := Option.bind_eq_some_iff.1 hr
        have hr₁ : r.1 = s.1 := by
          split at he <;> (obtain rfl := Option.some.inj he; rfl)
        exact (congrArg Cluster.outcomes hr₁).trans (outcomes_stepWait hs)
  | follow q sink who =>
      obtain ⟨r, hr, rfl⟩ := Option.map_eq_some_iff.1 h
      exact .inl (outcomes_stepFollow hr)

/-- What has come to an end has done so for good. -/
theorem isSome_outcome?_stepTask (h : c.stepTask t = some d)
    (ho : (c.outcome? id).isSome = true) : (d.outcome? id).isSome = true := by
  rcases outcomes_stepTask h with he | ⟨r, he⟩
  · rwa [outcome?, he]
  · rw [outcome?, he, Option.isSome_map, List.find?_isSome]
    rw [outcome?, Option.isSome_map, List.find?_isSome] at ho
    obtain ⟨o, ho, hid⟩ := ho
    exact ⟨o, List.mem_cons_of_mem _ ho, hid⟩

theorem task?_stepTask_of_ne (h : c.stepTask t = some d) (hid : t.id ≠ id) :
    d.task? id = c.task? id := by
  obtain ⟨e, w, rfl, -, hspares, -⟩ := stepTask_eq_some h
  obtain ⟨q, hq⟩ := exists_ne_party t.work.party
  rw [task?_setTask, if_neg (Ne.symm hid), task?, (hspares q hq).tasks, task?]

/-! ### The stages of a withdrawal -/

/-- The withdrawal of a party, run by a task: it waits for the store until a certain moment, it
tells the watchers, or it has ended. -/
inductive Leaving (p : String) (id T : Nat) (c : Cluster) : Prop where
  | calling {f : Flight} (hwork : c.task? id = some ⟨id, .routine p (.call f)⟩)
      (hpoint : f.point = .retire) (hdeadline : f.deadline = T)
  | telling {n : Notification} (hwork : c.task? id = some ⟨id, .routine p (.notice n .finished)⟩)
  | ended (hended : (c.outcome? id).isSome = true)

/-- The withdrawal of a party has come to an inbox without room, and it is still telling. -/
def HeldUp (p : String) (id : Nat) (c : Cluster) : Prop :=
  ∃ (d : Cluster) (n n' : Notification),
    d.task? id = some ⟨id, .routine p (.notice n .finished)⟩ ∧ (d.bus p).Blocks n ∧
      d.Evolves c ∧ c.task? id = some ⟨id, .routine p (.notice n' .finished)⟩

/-- The withdrawal has ended, unless it is held up. -/
def Left (p : String) (id : Nat) (c : Cluster) : Prop :=
  c.HeldUp p id ∨ (c.outcome? id).isSome = true

theorem leased?_of_place? (h : c.place? p ≠ none) : ∃ l, c.leased? p = some l := by
  obtain ⟨x, hx⟩ := Option.ne_none_iff_exists'.1 h
  obtain ⟨l, hl, -⟩ := Option.map_eq_some_iff.1 hx
  exact ⟨l, hl⟩

/-- With the answer, or without one, the watchers are told next. -/
theorem answer_retire (c : Cluster) (p : String) (m : Member)
    (reply : Except Failure (CallPoint.Reply .retire)) :
    (c.answer p m .retire reply).2 = .inl (.notice
      ((c.setMember p (m.resume c.now .retire reply).1).bus p).announce .finished) := rfl

/-- The store carries out the call, or the watchers are told next. -/
theorem stepFlight_retire {f : Flight} (hpoint : f.point = .retire)
    {r : Cluster × (Wait ⊕ Except Failure Unit)} (h : c.stepFlight p f = some r) :
    (f.reply = none ∧ ∃ reply, r.2 = .inl (.call { f with reply := some reply })) ∨
      ∃ n, r.2 = .inl (.notice n .finished) := by
  obtain ⟨point, actsAt, answersAt, deadline, reply⟩ := f
  subst hpoint
  rw [stepFlight] at h
  obtain ⟨l, -, h⟩ := Option.bind_eq_some_iff.1 h
  cases reply with
  | none =>
      dsimp only at h
      split at h
      · obtain rfl := Option.some.inj h
        exact .inl ⟨rfl, _, rfl⟩
      · split at h
        · obtain rfl := Option.some.inj h
          exact .inr ⟨_, answer_retire c p _ _⟩
        · cases h
  | some reply =>
      dsimp only at h
      split at h
      · obtain rfl := Option.some.inj h
        exact .inr ⟨_, answer_retire c p _ _⟩
      · split at h
        · obtain rfl := Option.some.inj h
          exact .inr ⟨_, answer_retire c p _ _⟩
        · cases h

/-- At its deadline a call can go on. -/
theorem stepFlight_ne_none {l : Leased} (hl : c.leased? p = some l) {f : Flight}
    (hT : f.deadline ≤ c.now) : c.stepFlight p f ≠ none := by
  rw [stepFlight, hl]
  cases f.reply with
  | none =>
      simp only [bind, Option.bind]
      rw [if_pos hT]
      split <;> exact Option.some_ne_none _
  | some reply =>
      simp only [bind, Option.bind]
      rw [if_pos hT]
      split <;> exact Option.some_ne_none _

theorem exists_stepTask_calling {l : Leased} (hl : c.leased? p = some l) {f : Flight}
    (hT : f.deadline ≤ c.now) (id : Nat) :
    ∃ d, c.stepTask ⟨id, .routine p (.call f)⟩ = some d := by
  obtain ⟨⟨e, w⟩, hs⟩ := Option.ne_none_iff_exists'.1 (stepFlight_ne_none hl hT)
  rw [stepTask]
  dsimp only [stepWait]
  rw [hs]
  cases w with
  | inl w => exact ⟨_, rfl⟩
  | inr r => exact ⟨_, rfl⟩

/-- Telling goes on to the end or to an inbox without room. -/
theorem stepWait_telling {l : Leased} (hl : c.leased? p = some l) {n : Notification}
    {r : Cluster × (Wait ⊕ Except Failure Unit)}
    (h : c.stepWait p (.notice n .finished) = some r) :
    (∃ n', r.2 = .inl (.notice n' .finished) ∧ (r.1.bus p).Blocks n') ∨ ∃ x, r.2 = .inr x := by
  rw [stepWait] at h
  split at h
  · next b n' hb =>
      split at h
      · cases h
      · obtain rfl := Option.some.inj h
        exact .inl ⟨n', rfl, (bus_setBus_self hl b).symm ▸ Bus.blocks_of_advance hb⟩
  · dsimp only at h
    split at h
    · obtain rfl := Option.some.inj h
      exact .inr ⟨_, rfl⟩
    · obtain rfl := Option.some.inj h
      exact .inr ⟨_, rfl⟩

theorem blocks_of_stepWait {n : Notification} (h : c.stepWait p (.notice n .finished) = none) :
    (c.bus p).Blocks n := by
  rw [stepWait] at h
  split at h
  · next b n' hb =>
      split at h
      · next hn =>
          rw [hn] at hb
          exact Bus.blocks_of_advance_self hb
      · cases h
  · dsimp only at h
    split at h <;> cases h

/-- A step of a routine is a step of what it waits for, and an outcome is noted down. -/
theorem stepTask_routine {w : Wait} (h : c.stepTask ⟨id, .routine p w⟩ = some d) :
    ∃ r, c.stepWait p w = some r ∧ d.bus p = r.1.bus p ∧
      (∀ w', r.2 = .inl w' → d.task? id = some ⟨id, .routine p w'⟩) ∧
      (∀ x, r.2 = .inr x → (d.outcome? id).isSome = true) := by
  rw [stepTask] at h
  dsimp only at h
  split at h
  · cases h
  · next e w' hs =>
      obtain rfl := Option.some.inj h
      refine ⟨_, hs, rfl, fun w'' he => ?_, fun x he => (by cases he)⟩
      rw [task?_setTask, if_pos rfl, ← Sum.inl.inj he]
      rfl
  · next e x hs =>
      obtain rfl := Option.some.inj h
      exact ⟨_, hs, rfl, fun w' he => (by cases he), fun _ _ => (by simp [outcome?])⟩

theorem stepTask_routine_eq_none {w : Wait} (h : c.stepTask ⟨id, .routine p w⟩ = none) :
    c.stepWait p w = none := by
  rw [stepTask] at h
  dsimp only at h
  split at h
  · next hs => exact hs
  · cases h
  · cases h

/-! ### What a withdrawal comes to -/

theorem HeldUp.evolves (h : c.HeldUp p id) (he : c.Evolves d)
    (hwork : d.task? id = c.task? id) : d.HeldUp p id := by
  obtain ⟨e, n, n', hn, hb, hec, hc⟩ := h
  exact ⟨e, n, n', hn, hb, hec.trans he, hwork.trans hc⟩

theorem lasts_place (p : String) : Lasts fun c => c.place? p ≠ none where
  step _ hd h := by rwa [(works_stepTask hd).place]
  alike hd _ h := by rwa [(hd.works (q := p)).place]

theorem Left.step (ht : c.task? t.id = some t) (hd : c.stepTask t = some d)
    (hplace : c.place? p ≠ none) (h : c.Left p id) : d.Left p id := by
  rcases h with h | h
  · by_cases hid : t.id = id
    · subst hid
      obtain ⟨e, n, n', hn, hb, hec, hc⟩ := h
      have hd' := evolves_stepTask ht hd
      rw [← Option.some.inj (hc.symm.trans ht)] at hd
      obtain ⟨l, hl⟩ := leased?_of_place? hplace
      obtain ⟨r, hr, -, hgoes, hends⟩ := stepTask_routine hd
      rcases stepWait_telling hl hr with ⟨n'', he, -⟩ | ⟨x, he⟩
      · exact .inl ⟨e, n, n'', hn, hb, hec.trans hd', hgoes _ he⟩
      · exact .inr (hends _ he)
    · exact .inl (h.evolves (evolves_stepTask ht hd) (task?_stepTask_of_ne hd hid))
  · exact .inr (isSome_outcome?_stepTask hd h)

/-- What a withdrawal has come to is there for good. -/
theorem lasts_left (p : String) (id : Nat) : Lasts fun c => c.place? p ≠ none ∧ c.Left p id where
  step ht hd h := ⟨(lasts_place p).step ht hd h.1, h.2.step ht hd h.1⟩
  alike {c d} hd ho h := by
    refine ⟨(lasts_place p).alike hd ho h.1, ?_⟩
    rcases h.2 with h | h
    · exact .inl (h.evolves (Evolves.refl.alike hd) (hd.task? id))
    · exact .inr (by rwa [outcome?, ho])

theorem Leaving.step (ht : c.task? t.id = some t) (hd : c.stepTask t = some d)
    (hplace : c.place? p ≠ none) (h : c.Leaving p id T) : d.Leaving p id T := by
  by_cases hid : t.id = id
  · subst hid
    cases h with
    | @calling f hwork hpoint hdeadline =>
        rw [← Option.some.inj (hwork.symm.trans ht)] at hd
        obtain ⟨r, hr, -, hgoes, -⟩ := stepTask_routine hd
        rcases stepFlight_retire hpoint hr with ⟨-, reply, he⟩ | ⟨n, he⟩
        · exact .calling (hgoes _ he) hpoint hdeadline
        · exact .telling (hgoes _ he)
    | telling hwork =>
        rw [← Option.some.inj (hwork.symm.trans ht)] at hd
        obtain ⟨l, hl⟩ := leased?_of_place? hplace
        obtain ⟨r, hr, -, hgoes, hends⟩ := stepTask_routine hd
        rcases stepWait_telling hl hr with ⟨n, he, -⟩ | ⟨x, he⟩
        · exact .telling (hgoes _ he)
        · exact .ended (hends _ he)
    | ended h => exact .ended (isSome_outcome?_stepTask hd h)
  · have htask := task?_stepTask_of_ne hd hid
    cases h with
    | calling hwork hpoint hdeadline => exact .calling (htask.trans hwork) hpoint hdeadline
    | telling hwork => exact .telling (htask.trans hwork)
    | ended h => exact .ended (isSome_outcome?_stepTask hd h)

theorem lasts_leaving (p : String) (id T : Nat) :
    Lasts fun c => c.place? p ≠ none ∧ c.Leaving p id T where
  step ht hd h := ⟨(lasts_place p).step ht hd h.1, h.2.step ht hd h.1⟩
  alike {c d} hd ho h := by
    refine ⟨(lasts_place p).alike hd ho h.1, ?_⟩
    have htask := hd.task? id
    cases h.2 with
    | calling hwork hpoint hdeadline => exact .calling (htask.trans hwork) hpoint hdeadline
    | telling hwork => exact .telling (htask.trans hwork)
    | ended h => exact .ended (by rwa [outcome?, ho])

theorem Leaving.setNow (h : c.Leaving p id T) (now : Nat) :
    ({ c with now } : Cluster).Leaving p id T := by
  cases h with
  | calling hwork hpoint hdeadline => exact .calling hwork hpoint hdeadline
  | telling hwork => exact .telling hwork
  | ended h => exact .ended h

/-! ### The turn of a withdrawal -/

/-- Who tells has told everyone after its turn, or has come to an inbox without room. -/
theorem left_of_telling (hplace : c.place? p ≠ none) {n : Notification}
    (hwork : c.task? id = some ⟨id, .routine p (.notice n .finished)⟩) (fuel : Nat) :
    (runTask id (fuel + 1) c).1.Left p id := by
  cases hd : c.stepTask ⟨id, .routine p (.notice n .finished)⟩ with
  | none =>
      have hb := blocks_of_stepWait (stepTask_routine_eq_none hd)
      rw [runTask, hwork]
      dsimp only
      rw [hd]
      exact .inl ⟨c, n, n, hwork, hb, .refl, hwork⟩
  | some d =>
      obtain ⟨l, hl⟩ := leased?_of_place? hplace
      obtain ⟨r, hr, hbus, hgoes, hends⟩ := stepTask_routine hd
      have hleft : d.Left p id := by
        rcases stepWait_telling hl hr with ⟨n', he, hb⟩ | ⟨x, he⟩
        · exact .inl ⟨d, n', n', hgoes _ he, hbus ▸ hb, .refl, hgoes _ he⟩
        · exact .inr (hends _ he)
      rw [runTask_succ hwork hd]
      exact ((lasts_left p id).runTask id fuel
        ⟨(lasts_place p).step hwork hd hplace, hleft⟩).2

/-- A call that is late is over after its turn, with or without an answer. -/
theorem left_of_calling (hplace : c.place? p ≠ none) {f : Flight} (hpoint : f.point = .retire)
    (hT : f.deadline ≤ c.now) (hwork : c.task? id = some ⟨id, .routine p (.call f)⟩) (fuel : Nat) :
    (runTask id (fuel + 3) c).1.Left p id := by
  obtain ⟨l, hl⟩ := leased?_of_place? hplace
  -- after one step there is an answer, or the watchers are told
  obtain ⟨d, hd⟩ := exists_stepTask_calling hl hT id
  obtain ⟨r, hr, -, hgoes, -⟩ := stepTask_routine hd
  have hplace' := (lasts_place p).step hwork hd hplace
  rw [runTask_succ hwork hd]
  rcases stepFlight_retire hpoint hr with ⟨-, reply, he⟩ | ⟨n, he⟩
  · obtain ⟨l', hl'⟩ := leased?_of_place? hplace'
    have hT' : f.deadline ≤ d.now := by rwa [(works_stepTask hd).now]
    obtain ⟨e, hstep⟩ := exists_stepTask_calling (f := { f with reply := some reply }) hl' hT' id
    obtain ⟨r', hr', -, hgoes', -⟩ := stepTask_routine hstep
    rw [runTask_succ (hgoes _ he) hstep]
    rcases stepFlight_retire (f := { f with reply := some reply }) hpoint hr' with
      ⟨hnone, -⟩ | ⟨n, he'⟩
    · cases hnone
    · exact left_of_telling ((lasts_place p).step (hgoes _ he) hstep hplace') (hgoes' _ he') fuel
  · exact left_of_telling hplace' (hgoes _ he) (fuel + 1)

theorem Leaving.turn (hplace : c.place? p ≠ none) (hT : T ≤ c.now) (h : c.Leaving p id T) :
    (runTask id patience c).1.Left p id := by
  obtain ⟨fuel, hfuel⟩ : ∃ fuel, patience = fuel + 3 := ⟨9999997, rfl⟩
  rw [hfuel]
  cases h with
  | calling hwork hpoint hdeadline =>
      exact left_of_calling hplace hpoint (hdeadline ▸ hT) hwork fuel
  | telling hwork => exact left_of_telling hplace hwork (fuel + 2)
  | ended h => exact ((lasts_left p id).runTask id _ ⟨hplace, .inr h⟩).2

/-- From the deadline on, the withdrawal has its turn before the cluster is at rest. -/
theorem Leaving.left_settle (hplace : c.place? p ≠ none) (hT : T ≤ c.now)
    (h : c.Leaving p id T) : c.settle.Left p id := by
  have hlined {w : Work} (hwork : c.task? id = some ⟨id, w⟩) : c.settle.Left p id := by
    have hid : id ∈ c.tasks.map (·.id) := List.mem_map_of_mem (List.mem_of_find?_eq_some hwork)
    refine ((lasts_left p id).settle_of_runRound (runRound_turn (I := fun c =>
      c.place? p ≠ none ∧ T ≤ c.now ∧ c.Leaving p id T) hid (fun _ ht hd h => ?_)
        (fun h => ?_) (lasts_left p id) ⟨hplace, hT, h⟩)).2
    · obtain ⟨hplace, hT, h⟩ := h
      obtain ⟨hplace', h'⟩ := (lasts_leaving p id T).step ht hd ⟨hplace, h⟩
      exact ⟨hplace', by rwa [(works_stepTask hd).now], h'⟩
    · exact ⟨(lasts_place p).runTask id _ h.1, h.2.2.turn h.1 h.2.1⟩
  cases h with
  | calling hwork hpoint hdeadline => exact hlined hwork
  | telling hwork => exact hlined hwork
  | ended h => exact ((lasts_left p id).settle ⟨hplace, .inr h⟩).2

/-- By its deadline the withdrawal has ended, unless it is held up. -/
theorem Leaving.left_waitLoop {fuel : Nat} (hplace : c.place? p ≠ none) (h : c.Leaving p id T)
    (hnow : c.now ≤ T) (hfuel : T < c.now + fuel) :
    (waitLoop (fun c => (c.task? id).isNone) T fuel c).Left p id := by
  induction fuel generalizing c with
  | zero => omega
  | succ fuel ih =>
      have hlimit : ({ c with now := max c.now T } : Cluster).settle.Left p id :=
        (h.setNow _).left_settle hplace (Nat.le_max_right _ _)
      rw [waitLoop]
      split
      · next hdone =>
          cases h with
          | calling hwork _ _ => simp [hwork] at hdone
          | telling hwork => simp [hwork] at hdone
          | ended h => exact .inr h
      · split
        · next t ht =>
            split
            · next hle =>
                have hlater := lt_of_nextDue? ht
                obtain ⟨hplace', h'⟩ :=
                  (lasts_leaving p id T).settle (c := { c with now := t }) ⟨hplace, h.setNow t⟩
                refine ih hplace' h' ?_ ?_
                · rw [settle_now]
                  exact hle
                · rw [settle_now]
                  dsimp only
                  omega
            · exact hlimit
        · exact hlimit

/-- A withdrawal that has been started waits for the store. -/
theorem leaving_start (hc : c.Tidy) {l : Leased} (hl : c.leased? p = some l) :
    (c.act (.start p .withdrawal)).now = c.now ∧
      (c.act (.start p .withdrawal)).place? p ≠ none ∧
      (c.act (.start p .withdrawal)).Leaving p c.nextTask
        (l.flight c.now .retire).deadline := by
  have htidy : (c.setMember p l.member.deregister.1).Tidy :=
    hc.of_eq (setMember_tasks c p _) (setMember_nextTask c p _)
  rw [(withdraw_eq hl).1]
  refine ⟨setMember_now c p _, ?_, .calling (f := l.flight c.now .retire) ?_ rfl rfl⟩
  · change (c.setMember p l.member.deregister.1).place? p ≠ none
    rw [place?, leased?_setMember_self hl]
    exact Option.some_ne_none _
  · rw [task?_spawn htidy, setMember_nextTask, if_pos rfl]

/-- A withdrawal that does not come back is held up at an inbox without room. -/
theorem heldUp_of_withdraw (hc : c.Tidy) (h : (c.withdraw p).2 = none) :
    (c.withdraw p).1.HeldUp p c.nextTask := by
  obtain ⟨l, hl⟩ : ∃ l, c.leased? p = some l := by
    cases hl : c.leased? p with
    | some l => exact ⟨l, rfl⟩
    | none =>
        rw [withdraw, member?, hl] at h
        cases h
  obtain ⟨hnow, hbegun⟩ := leaving_start hc hl
  rw [(withdraw_eq hl).2] at h ⊢
  dsimp only at h ⊢
  generalize c.act (.start p .withdrawal) = d at hbegun hnow h ⊢
  have hrun := (lasts_leaving p c.nextTask _).runTask c.nextTask patience hbegun
  have hrunNow := (lasts_now d.now).runTask c.nextTask patience rfl
  generalize (runTask c.nextTask patience d).1 = e at hrun hrunNow h ⊢
  obtain ⟨hplace, hrest⟩ := (lasts_leaving p c.nextTask _).settle hrun
  have hle : e.now ≤ (l.flight c.now .retire).deadline := by
    rw [hrunNow, hnow]
    exact Nat.le_add_right _ _
  have hleft : (e.awaitTask c.nextTask (l.flight c.now .retire).deadline).Left p c.nextTask := by
    refine hrest.left_waitLoop hplace ?_ ?_
    · rw [settle_now]
      exact hle
    · rw [settle_now]
      omega
  rcases hleft with hheld | hover
  · exact hheld
  · rw [h] at hover
    cases hover

/-! ### For ever -/

def isHeldUp (c : Cluster) (w : Work) : Bool :=
  match w.wait? with
  | some (.notice n _) => ((c.bus w.party).advance n).2 = some n
  | _ => false

theorem isHeldUp_iff {w : Work} :
    c.isHeldUp w = true ↔ ∃ n point, w.wait? = some (.notice n point) ∧
      ((c.bus w.party).advance n).2 = some n := by
  constructor
  · intro h
    unfold isHeldUp at h
    split at h
    · next n point hw => exact ⟨n, point, hw, of_decide_eq_true h⟩
    · cases h
  · rintro ⟨n, point, hw, h⟩
    rw [isHeldUp, hw]
    exact decide_eq_true h

/-- Every task tells the watchers of a party, and none of them gets on. -/
def Stuck (c : Cluster) : Prop := ∀ t ∈ c.tasks, c.isHeldUp t.work = true

instance (c : Cluster) : Decidable c.Stuck :=
  inferInstanceAs (Decidable (∀ t ∈ c.tasks, c.isHeldUp t.work = true))

/-- Work that is held up has no step. -/
theorem stepTask_eq_none {w : Work} (h : c.isHeldUp w = true) (id : Nat) :
    c.stepTask ⟨id, w⟩ = none := by
  obtain ⟨n, point, hw, hn⟩ := isHeldUp_iff.1 h
  have hwait : c.stepWait w.party (.notice n point) = none := by
    rw [stepWait]
    cases hb : (c.bus w.party).advance n with
    | mk b rest =>
        rw [hb] at hn
        obtain rfl : rest = some n := hn
        simp
  cases w with
  | routine p x =>
      obtain rfl := Option.some.inj hw
      rw [Cluster.stepTask]
      dsimp only
      rw [show c.stepWait p (.notice n point) = none from hwait]
  | keepAlive p loop =>
      cases loop with
      | ticking x =>
          obtain rfl := Option.some.inj hw
          rw [Cluster.stepTask]
          dsimp only
          rw [stepKeepAlive, show c.stepWait p (.notice n point) = none from hwait]
          rfl
      | _ => cases hw
  | watch p loop =>
      cases loop with
      | applying feed injected x =>
          obtain rfl := Option.some.inj hw
          rw [Cluster.stepTask]
          dsimp only
          rw [stepWatch, show c.stepWait p (.notice n point) = none from hwait]
          rfl
      | _ => cases hw
  | follow p sink who => cases hw

namespace Stuck

theorem alike (h : c.Stuck) (ht : d.tasks = c.tasks) (hp : d.parties = c.parties) : d.Stuck := by
  intro t hmem
  rw [ht] at hmem
  obtain ⟨n, point, hw, hn⟩ := isHeldUp_iff.1 (h t hmem)
  exact isHeldUp_iff.2 ⟨n, point, hw, by rwa [bus_of_parties hp]⟩

theorem runTask (h : c.Stuck) (id fuel : Nat) : c.runTask id fuel = (c, false) := by
  cases fuel with
  | zero => rfl
  | succ fuel =>
      rw [Cluster.runTask]
      cases ht : c.task? id with
      | none => rfl
      | some t =>
          dsimp only
          rw [stepTask_eq_none (h t (List.mem_of_find?_eq_some ht))]

theorem settle (h : c.Stuck) : c.settle = c.forwardAll := by
  have hround (ids : List Nat) : c.runRound ids = (c, false) := by
    rw [runRound]
    induction ids with
    | nil => rfl
    | cons id ids ih =>
        rw [List.foldl_cons]
        simp only [h.runTask, Bool.or_false]
        exact ih
  obtain ⟨fuel, hfuel⟩ : ∃ fuel, patience = fuel + 1 := ⟨9999999, rfl⟩
  rw [Cluster.settle, hfuel, settleRounds, hround]

theorem nextDue? (h : c.Stuck) : c.nextDue? = none := by
  have hdue : (c.tasks.flatMap fun t => t.work.dueAt) = [] := by
    refine List.flatMap_eq_nil_iff.2 fun t ht => ?_
    obtain ⟨n, point, hw, -⟩ := isHeldUp_iff.1 (h t ht)
    exact Work.dueAt_of_wait? hw
  rw [Cluster.nextDue?, hdue]
  rfl

/-- Time does not help. -/
theorem advance (h : c.Stuck) (ms : Nat) :
    (c.advance ms).tasks = c.tasks ∧ (c.advance ms).outcomes = c.outcomes := by
  have halike := alike_forwardAll c
  have hrest : c.forwardAll.Stuck := h.alike halike.tasks halike.parties
  have hlater (t : Nat) : ({ c.forwardAll with now := t } : Cluster).Stuck := hrest.alike rfl rfl
  have hfuel : c.now + ms + 1 - c.now = ms + 1 := by omega
  rw [Cluster.advance, advanceTo, h.settle, hfuel, waitLoop, if_neg Bool.false_ne_true,
    hrest.nextDue?]
  dsimp only
  rw [(hlater _).settle]
  exact ⟨(alike_forwardAll _).tasks.trans halike.tasks,
    (outcomes_forwardAll _).trans (outcomes_forwardAll c)⟩

end Stuck

end Cluster

end ServiceMesh
