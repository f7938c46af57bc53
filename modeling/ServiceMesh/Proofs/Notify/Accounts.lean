import ServiceMesh.Proofs.Notify.Deliveries

/-!
The accounts of a bus. For every run of notifications and watchers they say who has been given how
many signals, when a notification has to wait and who is on the bus.
-/

namespace ServiceMesh.Traffic

variable {b : Bus} {t : Traffic} {x : Act} {k i : Nat}

/-! ### Signals -/

/-- What notifications have given in a run from `s` to `t`. -/
structure Delivers (s : Traffic) (acts : List Act) (t : Traffic) : Prop where
  /-- A notification is for the inboxes that are on the bus when it begins. -/
  audience : ∀ before after, acts = before ++ .notify :: after →
    ∃ d, t.deliveries[(s.play before).deliveries.length]? = some d ∧
      d.audience = (s.play before).bus.ids
  /-- It has dealt with each of them once when it is complete. -/
  visits : ∀ k d, t.deliveries[k]? = some d → d.stage = .complete →
    ∀ i ∈ d.audience, s.visits acts k i = 1
  /-- Under `block` it has given exactly one signal to whoever is still there. -/
  given : s.bus.policy = .block → ∀ k d, t.deliveries[k]? = some d → d.stage = .complete →
    ∀ i ∈ d.audience, t.bus.IsOpen i → s.given acts k i = 1
  /-- It gives two signals to nobody, and none to others. -/
  given_le : ∀ k d i, t.deliveries[k]? = some d →
    s.given acts k i ≤ if i ∈ d.audience then 1 else 0
  /-- On its way, those before the inbox that it has reached have been served, and those from this
  one on have not. -/
  progress : s.bus.policy = .block → ∀ k d i, t.underWay? k = some d → t.facing k = some i →
    ∃ earlier later, d.audience = earlier ++ i :: later ∧
      (∀ j ∈ earlier, t.bus.IsOpen j → s.given acts k j = 1) ∧
      ∀ j ∈ i :: later, s.given acts k j = 0
  /-- The signals taken out of an inbox and those left in it are as many as the notifications that
  have served it, beside the signals that were there at the beginning. -/
  balance : ∀ i, t.bus.IsOpen i →
    s.drained acts i + t.bus.queued i = s.bus.queued i + (s.servers acts i).card

theorem delivers_play (h : b.Proper) (acts : List Act) :
    (start b).Delivers acts ((start b).play acts) where
  audience before after hacts := by
    subst hacts
    have hproper := proper_start h before
    rw [play_append]
    exact audience_play ((alters_act hproper .notify).proper hproper) List.getElem?_concat_length
      after
  visits k d hd hs i hi := (kept_play h hd).visits_of_complete hs hi
  given hp k d hd hs i hi ho := by
    rw [given_eq_visits h hp k (.inl ho)]
    exact (kept_play h hd).visits_of_complete hs hi
  given_le k d i hd := by
    have hkept := kept_play h hd
    have hle := given_le_visits acts k i h
    have hvisits := hkept.visits i
    split
    · exact Nat.le_trans hle (visits_le_one acts k i h)
    · next hi =>
        rw [List.count_eq_zero_of_not_mem hi] at hvisits
        omega
  progress hp k d i hd hi := by
    have hkept := kept_play h (underWay?_eq_some_iff.1 hd).1
    rw [facing_eq hd] at hi
    obtain ⟨later, hrest⟩ := List.head?_eq_some_iff.1 hi
    obtain ⟨earlier, haudience⟩ := hkept.suffix
    have hdisjoint := (List.nodup_append.1 (haudience.symm ▸ hkept.nodup)).2.2
    refine ⟨earlier, later, by rw [← haudience, hrest], fun j hj ho => ?_, fun j hj => ?_⟩
    · rw [given_eq_visits h hp k (.inl ho)]
      refine hkept.visits_of_mem ?_ fun hj' => hdisjoint j hj j hj' rfl
      rw [← haudience]
      exact List.mem_append_left _ hj
    · have hle := given_le_visits acts k j h
      rw [hkept.visits_of_mem_rest (hrest ▸ hj)] at hle
      exact Nat.le_zero.1 hle
  balance i ho := by
    rw [drained_add_queued h (.inl ho) (Nat.le_refl _), sum_given h]
    rfl

/-! ### Waiting -/

structure Paced (t : Traffic) : Prop where
  /-- Under `block` it is suspended exactly while the open inbox that it has reached is full. -/
  suspended_iff : t.bus.policy = .block → ∀ k,
    t.Suspended k ↔ ∃ i, t.facing k = some i ∧ t.bus.IsOpen i ∧ t.bus.IsFull i
  /-- Under `coalesce` it never is. -/
  not_suspended : t.bus.policy = .coalesce → ∀ k, ¬t.Suspended k
  /-- An open inbox that is served has one signal more, or as many as it can hold. -/
  serve : ∀ k i e, t.facing k = some i → ¬t.Suspended k → t.bus.sink? i = some e →
    e.isOpen = true →
      (t.act (.serve k)).bus.sink? i = some { e with queued := min e.capacity (e.queued + 1) } ∧
        ∀ j, j ≠ i → (t.act (.serve k)).bus.sink? j = t.bus.sink? j
  /-- Under `coalesce` a notification that is not interrupted does this to all open inboxes, and the
  closed ones leave the bus. -/
  announce : t.bus.policy = .coalesce →
    t.bus.advance t.bus.announce =
      ({ t.bus with sinks := (t.bus.sinks.filter (·.isOpen)).map fun e =>
          { e with queued := min e.capacity (e.queued + 1) } }, none)
  /-- To go on as far as possible is to take steps in a row, up to the end or until it is
  suspended. -/
  advance : ∀ k d, t.underWay? k = some d →
    ∃ m, (t.play (.replicate m (.serve k))).bus = (t.bus.advance d.notification).1 ∧
      ((t.bus.advance d.notification).2 = none → (t.play (.replicate m (.serve k))).Complete k) ∧
      ∀ n, (t.bus.advance d.notification).2 = some n →
        (t.play (.replicate m (.serve k))).underWay? k = some { d with notification := n } ∧
          (t.play (.replicate m (.serve k))).Suspended k

theorem paced (h : t.bus.Proper) : t.Paced where
  suspended_iff hp k := by
    rw [suspended_iff h]
    exact and_iff_right hp
  not_suspended hp k hs := by
    cases hp.symm.trans ((suspended_iff h).1 hs).1
  serve k i e hi hgo he ho := by
    rw [act_bus_of_isOpen h hi hgo ⟨e, he, ho⟩]
    refine ⟨?_, fun j hj => ?_⟩
    · rw [Bus.sink?_fill, if_pos rfl, he]
      rfl
    · rw [Bus.sink?_fill, if_neg hj]
  announce hp := Bus.advance_announce_of_coalesce h hp
  advance k d hd := play_serve_advance hd

/-! ### Who is on the bus -/

/-- Which inboxes are on the bus after a run from `s` to `t`, and which leave it next. -/
structure Registered (s : Traffic) (acts : List Act) (t : Traffic) : Prop where
  policy : t.bus.policy = s.bus.policy
  /-- When a notification that has met a closed inbox is complete, the open ones are left on the
  bus, and when one that has met none is complete, all are. -/
  complete : ∀ k, ¬t.Complete k → (t.act (.serve k)).Complete k →
    (s.HasMetClosed acts k → (t.act (.serve k)).bus.sinks = t.bus.sinks.filter (·.isOpen)) ∧
    (¬s.HasMetClosed acts k → (t.act (.serve k)).bus.sinks = t.bus.sinks)
  /-- In no other way an inbox leaves the bus, and only a closed one does. -/
  removed : ∀ x i, i ∈ t.bus.ids → i ∉ (t.act x).bus.ids →
    ¬t.bus.IsOpen i ∧
      ∃ k, x = .serve k ∧ ¬t.Complete k ∧ (t.act x).Complete k ∧ s.HasMetClosed acts k
  /-- An open inbox is on the bus until its watcher goes away. -/
  isOpen : ∀ before after i, acts = before ++ after → (s.play before).bus.IsOpen i →
    .close i ∉ after → t.bus.IsOpen i
  /-- The inboxes that stay are in the same order, and new ones come behind them. -/
  order : ∀ before after, acts = before ++ after →
    ∃ new, (∀ j ∈ new, (s.play before).bus.nextId ≤ j) ∧
      t.bus.ids.Sublist ((s.play before).bus.ids ++ new)
  within : ∀ e ∈ t.bus.sinks, e.queued ≤ e.capacity

theorem act_of_complete (h : t.bus.Proper) (hk : ¬t.Complete k)
    (hk' : (t.act (.serve k)).Complete k) :
    ∃ d, t.deliveries[k]? = some d ∧
      (t.act (.serve k)).bus = if d.notification.metClosed then t.bus.prune else t.bus := by
  have hgoes := goes_serve h k
  generalize t.act (.serve k) = t' at hgoes hk' ⊢
  cases hgoes with
  | idle _ => exact absurd hk' hk
  | complete hd hrest => exact ⟨_, (underWay?_eq_some_iff.1 hd).1, rfl⟩
  | signal hd hrest hgo ho => exact absurd hk' (not_complete_of_underWay? (underWay?_set hd _ _))
  | pass hd hrest hgo hno => exact absurd hk' (not_complete_of_underWay? (underWay?_set hd _ _))

/-- Only what is complete and has met a closed inbox takes something off the bus. -/
theorem act_of_removed (h : t.bus.Proper) (hi : i ∈ t.bus.ids) (hi' : i ∉ (t.act x).bus.ids) :
    ¬t.bus.IsOpen i ∧
      ∃ k d, x = .serve k ∧ t.underWay? k = some d ∧ (t.act x).Complete k ∧
        d.notification.metClosed = true := by
  cases x with
  | serve k =>
      have hgoes := goes_serve h k
      generalize t.act (.serve k) = t' at hgoes hi' ⊢
      cases hgoes with
      | idle _ => exact absurd hi hi'
      | @complete d hd hrest =>
          have hlt := (List.getElem?_eq_some_iff.1 (underWay?_eq_some_iff.1 hd).1).1
          by_cases hm : d.notification.metClosed = true
          · rw [if_pos hm] at hi' ⊢
            have hno : ¬t.bus.IsOpen i := fun ho =>
              hi' (Bus.mem_ids_of_isOpen ((Bus.isOpen_prune h).2 ho))
            exact ⟨hno, k, d, rfl, hd, ⟨_, List.getElem?_set_self hlt, rfl⟩, hm⟩
          · rw [if_neg hm] at hi'
            exact absurd hi hi'
      | signal hd hrest hgo ho => exact absurd ((Bus.ids_fill ..).symm ▸ hi) hi'
      | pass hd hrest hgo hno => exact absurd hi hi'
  | notify => exact absurd hi hi'
  | giveUp k =>
      rw [act] at hi'
      split at hi' <;> exact absurd hi hi'
  | addWatcher capacity =>
      exact absurd ((Bus.ids_addWatcher ..).symm ▸ List.mem_append_left _ hi) hi'
  | subscribe => exact absurd ((Bus.ids_addWatcher ..).symm ▸ List.mem_append_left _ hi) hi'
  | drain j limit => exact absurd ((Bus.ids_drain ..).symm ▸ hi) hi'
  | close j => exact absurd ((Bus.ids_close ..).symm ▸ hi) hi'

theorem registered_play (h : b.Proper) (acts : List Act) :
    (start b).Registered acts ((start b).play acts) where
  policy := policy_play (t := start b) h acts
  complete k hk hk' := by
    obtain ⟨d, hd, hbus⟩ := act_of_complete (proper_start h acts) hk hk'
    have hmet := (kept_play h hd).met
    rw [hbus, ← hmet]
    exact ⟨fun hm => by rw [if_pos hm]; rfl, fun hm => by rw [if_neg hm]⟩
  removed x i hi hi' := by
    obtain ⟨hno, k, d, rfl, hd, hcomplete, hm⟩ :=
      act_of_removed (proper_start h acts) hi hi'
    have hmet := (kept_play h (underWay?_eq_some_iff.1 hd).1).met
    exact ⟨hno, k, rfl, not_complete_of_underWay? hd, hcomplete, hmet.1 hm⟩
  isOpen before after i hacts ho hc := by
    subst hacts
    rw [play_append]
    exact isOpen_play (proper_start h before) ho hc
  order before after hacts := by
    subst hacts
    rw [play_append]
    exact order_play (proper_start h before) after
  within := (proper_start h acts).within

/-- Every run of notifications and watchers on a bus has its accounts in order. -/
theorem signals_accounted (h : b.Proper) (acts : List Act) :
    (start b).Delivers acts ((start b).play acts) ∧ ((start b).play acts).Paced ∧
      (start b).Registered acts ((start b).play acts) :=
  ⟨delivers_play h acts, paced (proper_start h acts), registered_play h acts⟩

/-- Three inboxes: one has room for one signal, one was full when its watcher went away, and one has
room for one signal more. -/
def relay : Bus := ⟨1, .block, [⟨0, 1, 0, true⟩, ⟨1, 2, 2, false⟩, ⟨2, 2, 1, true⟩], 3⟩

/-- The second notification waits at the first inbox until a signal is taken out of it. By then the
first one is complete and has taken the closed inbox off the bus. -/
def twoNotifications : List Act :=
  [.notify, .serve 0, .notify, .serve 1, .serve 0, .serve 0, .serve 0, .subscribe, .drain 0 1,
    .serve 1, .serve 1]

def relayed : Traffic where
  bus := ⟨1, .block, [⟨0, 1, 1, true⟩, ⟨2, 2, 2, true⟩, ⟨3, 1, 0, true⟩], 4⟩
  deliveries := [⟨[0, 1, 2], ⟨[], true⟩, .complete⟩, ⟨[0, 1, 2], ⟨[2], true⟩, .underWay⟩]

theorem play_twoNotifications : (start relay).play twoNotifications = relayed := by decide

theorem signals_accounted_twoNotifications :
    relay.Proper ∧ (start relay).play twoNotifications = relayed ∧ relayed.Suspended 1 ∧
      (start relay).given twoNotifications 0 2 = 1 ∧
      (start relay).given twoNotifications 1 0 = 1 ∧
      (start relay).given twoNotifications 1 2 = 0 ∧
      (start relay).drained twoNotifications 0 = 1 ∧
      ((start relay).servers twoNotifications 0).card = 2 := by
  have hproper : relay.Proper :=
    ⟨by simp [Bus.Numbered, relay], by decide, by simp [relay]⟩
  obtain ⟨delivers, paced, -⟩ := signals_accounted hproper twoNotifications
  rw [play_twoNotifications] at delivers paced
  have hopen : relayed.bus.IsOpen 0 ∧ relayed.bus.IsOpen 2 := by decide
  have hbalance := delivers.balance 0 hopen.1
  have hdrained : (start relay).drained twoNotifications 0 = 1 := by decide
  have hqueued : relayed.bus.queued 0 = 1 ∧ (start relay).bus.queued 0 = 0 := by decide
  have hunder : relayed.underWay? 1 = some ⟨[0, 1, 2], ⟨[2], true⟩, .underWay⟩ := rfl
  obtain ⟨earlier, later, haudience, hearlier, hlater⟩ :=
    delivers.progress rfl 1 _ 2 hunder rfl
  have hfirst : 0 ∈ earlier := by
    cases earlier with
    | nil => cases haudience
    | cons j earlier =>
        obtain ⟨rfl, -⟩ := List.cons_eq_cons.1 haudience
        exact List.mem_cons_self
  refine ⟨hproper, play_twoNotifications, ?_, ?_, ?_, ?_, hdrained, by omega⟩
  · exact (paced.suspended_iff rfl 1).2 ⟨2, rfl, hopen.2, by decide⟩
  · exact delivers.given rfl 0 _ rfl rfl 2 (by decide) hopen.2
  · exact hearlier 0 hfirst hopen.1
  · exact hlater 2 List.mem_cons_self

end ServiceMesh.Traffic
