import Mathlib.Algebra.BigOperators.Group.Finset.Piecewise
import Mathlib.Algebra.Order.BigOperators.Group.Finset
import ServiceMesh.Proofs.Notify.Traffic

/-!
Notifications in a run. Each deals with every inbox that was on the bus when it began, in their
order and once at most, and when it is complete it has dealt with all of them. Under `block` this
makes one signal for whoever is still there. What is taken out of an inbox and what is left in it
add up to what was there at the beginning and what notifications have given, under either policy.
-/

namespace ServiceMesh.Traffic

open Delivery

variable {b : Bus} {t : Traffic} {acts : List Act} {x : Act} {k i j : Nat} {d d' : Delivery}

def start (b : Bus) : Traffic := { bus := b }

/-! ### The inboxes in a run -/

theorem proper_play (h : t.bus.Proper) (acts : List Act) : (t.play acts).bus.Proper := by
  induction acts generalizing t with
  | nil => exact h
  | cons x acts ih => exact ih ((alters_act h x).proper h)

theorem policy_play (h : t.bus.Proper) (acts : List Act) :
    (t.play acts).bus.policy = t.bus.policy := by
  induction acts generalizing t with
  | nil => rfl
  | cons x acts ih =>
      have ha := alters_act h x
      exact (ih (ha.proper h)).trans ha.policy

theorem proper_start (h : b.Proper) (acts : List Act) : ((start b).play acts).bus.Proper :=
  proper_play (t := start b) h acts

/-- A bus that began empty is proper whatever has happened on it. -/
theorem proper_start_new (capacity : Nat) (policy : NotifyPolicy) (acts : List Act) :
    ((start (.new capacity policy)).play acts).bus.Proper :=
  proper_start (.new capacity policy) acts

theorem isOpen_play (h : t.bus.Proper) (ho : t.bus.IsOpen i) (hc : .close i ∉ acts) :
    (t.play acts).bus.IsOpen i := by
  induction acts generalizing t with
  | nil => exact ho
  | cons x acts ih =>
      obtain ⟨hx, hacts⟩ := not_or.1 (mt List.mem_cons.2 hc)
      have ha := alters_act h x
      exact ih (ha.proper h) (ha.isOpen h ho (Ne.symm hx)) hacts

/-- The inboxes that stay are in the same order, and new ones come behind them. -/
theorem order_play (h : t.bus.Proper) (acts : List Act) :
    ∃ new, (∀ j ∈ new, t.bus.nextId ≤ j) ∧
      (t.play acts).bus.ids.Sublist (t.bus.ids ++ new) := by
  induction acts generalizing t with
  | nil => exact ⟨[], by rintro j ⟨⟩, by rw [List.append_nil]; exact .refl _⟩
  | cons x acts ih =>
      have ha := alters_act h x
      obtain ⟨new, hnew, hsub⟩ := ha.order
      obtain ⟨new', hnew', hsub'⟩ := ih (ha.proper h)
      refine ⟨new ++ new', fun j hj => ?_, ?_⟩
      · rcases List.mem_append.1 hj with hj | hj
        · exact hnew j hj
        · exact Nat.le_trans ha.nextId_le (hnew' j hj)
      · rw [← List.append_assoc]
        exact hsub'.trans (hsub.append_right new')

/-! ### One notification in a run -/

/-- What an act means for a notification: it goes on by an inbox, or it does not. -/
inductive Proceeds (t : Traffic) (x : Act) (k : Nat) (d : Delivery) : Delivery → Prop where
  | rests (stage : Stage) (hv : ∀ i, ¬t.Visits x k i) (hm : ¬t.MeetsClosed x k)
      (hs : stage = .complete → d.stage = .complete ∨ d.notification.rest = []) :
      t.Proceeds x k d { d with stage }
  | visits {i : Nat} {rest : List Nat} (met : Bool) (hrest : d.notification.rest = i :: rest)
      (hv : t.Visits x k i) (hm : met = true ↔ d.notification.metClosed = true ∨ t.MeetsClosed x k)
      (hs : d.stage ≠ .complete) :
      t.Proceeds x k d { d with notification := ⟨rest, met⟩ }

theorem proceeds_of_ne (h : x ≠ .serve k) (d : Delivery) : t.Proceeds x k d d :=
  .rests d.stage (fun _ hv => h hv.1) (fun hm => h hm.1) .inl

theorem proceeds_serve (h : t.bus.Proper) (hd : t.deliveries[k]? = some d) :
    ∃ d', (t.act (.serve k)).deliveries[k]? = some d' ∧ t.Proceeds (.serve k) k d d' := by
  have hk : k < t.deliveries.length := (List.getElem?_eq_some_iff.1 hd).1
  have hunder {e : Delivery} (he : t.underWay? k = some e) : e = d ∧ d.stage ≠ .complete := by
    obtain ⟨he, hstage⟩ := underWay?_eq_some_iff.1 he
    obtain rfl := Option.some.inj (hd.symm.trans he)
    exact ⟨rfl, by simp [hstage]⟩
  have hgoes := goes_serve h k
  generalize t.act (.serve k) = t' at hgoes ⊢
  cases hgoes with
  | idle hs =>
      refine ⟨d, hd, .rests d.stage (fun i hv => hv.2.2 (hs i hv.2.1)) ?_ .inl⟩
      rintro ⟨-, i, hi, hno⟩
      obtain ⟨-, j, hj, ho, -⟩ := (suspended_iff h).1 (hs i hi)
      obtain rfl := Option.some.inj (hi.symm.trans hj)
      exact hno ho
  | complete he hrest =>
      obtain ⟨rfl, -⟩ := hunder he
      have hnone : t.facing k = none := by rw [facing_eq he, hrest]; rfl
      refine ⟨_, List.getElem?_set_self hk, .rests .complete ?_ ?_ fun _ => .inr hrest⟩
      · rintro i ⟨-, hi, -⟩
        cases hnone.symm.trans hi
      · rintro ⟨-, i, hi, -⟩
        cases hnone.symm.trans hi
  | @signal e i rest he hrest hgo ho =>
      obtain ⟨rfl, hstage⟩ := hunder he
      refine ⟨_, List.getElem?_set_self hk,
        .visits _ hrest ((visits_iff he hrest hgo).2 rfl) ⟨.inl, ?_⟩ hstage⟩
      rintro (hm | ⟨-, j, hj, hno⟩)
      · exact hm
      · rw [facing_eq he, hrest] at hj
        exact absurd (Option.some.inj hj ▸ ho) hno
  | @pass e i rest he hrest hgo hno =>
      obtain ⟨rfl, hstage⟩ := hunder he
      have hfacing : t.facing k = some i := by rw [facing_eq he, hrest]; rfl
      exact ⟨_, List.getElem?_set_self hk, .visits true hrest ((visits_iff he hrest hgo).2 rfl)
        ⟨fun _ => .inr ⟨rfl, i, hfacing, hno⟩, fun _ => rfl⟩ hstage⟩

theorem deliveries_serve_of_ne {k' : Nat} (h : t.bus.Proper) (hk : k' ≠ k) :
    (t.act (.serve k')).deliveries[k]? = t.deliveries[k]? := by
  have hgoes := goes_serve h k'
  generalize t.act (.serve k') = t' at hgoes ⊢
  cases hgoes with
  | idle _ => rfl
  | _ => exact List.getElem?_set_ne hk

theorem proceeds_giveUp (hd : t.deliveries[k]? = some d) (k' : Nat) :
    ∃ d', (t.act (.giveUp k')).deliveries[k]? = some d' ∧ t.Proceeds (.giveUp k') k d d' := by
  rw [act]
  split
  · exact ⟨d, hd, proceeds_of_ne (by rintro ⟨⟩) d⟩
  · next e he =>
      by_cases hk : k' = k
      · subst hk
        have hlt : k' < t.deliveries.length := (List.getElem?_eq_some_iff.1 hd).1
        obtain rfl := Option.some.inj (hd.symm.trans (underWay?_eq_some_iff.1 he).1)
        exact ⟨_, List.getElem?_set_self hlt,
          .rests .givenUp (by rintro i ⟨⟨⟩, -⟩) (by rintro ⟨⟨⟩, -⟩) (by rintro ⟨⟩)⟩
      · exact ⟨d, (List.getElem?_set_ne hk).trans hd, proceeds_of_ne (by rintro ⟨⟩) d⟩

theorem proceeds_act (h : t.bus.Proper) (hd : t.deliveries[k]? = some d) (x : Act) :
    ∃ d', (t.act x).deliveries[k]? = some d' ∧ t.Proceeds x k d d' := by
  cases x with
  | notify =>
      have hk : k < t.deliveries.length := (List.getElem?_eq_some_iff.1 hd).1
      exact ⟨d, (List.getElem?_append_left hk).trans hd, proceeds_of_ne (by rintro ⟨⟩) d⟩
  | serve k' =>
      by_cases hk : k' = k
      · subst hk
        exact proceeds_serve h hd
      · exact ⟨d, (deliveries_serve_of_ne h hk).trans hd,
          proceeds_of_ne (fun he => hk (Act.serve.inj he)) d⟩
  | giveUp k' => exact proceeds_giveUp hd k'
  | _ => exact ⟨d, hd, proceeds_of_ne (by rintro ⟨⟩) d⟩

/-- Only a notification that begins is new. -/
theorem length_act (h : t.bus.Proper) (x : Act) :
    (t.act x).deliveries.length = t.deliveries.length + if x = .notify then 1 else 0 := by
  cases x with
  | notify => simp [act]
  | serve k =>
      have hgoes := goes_serve h k
      generalize t.act (.serve k) = t' at hgoes ⊢
      cases hgoes <;> simp
  | giveUp k =>
      rw [act]
      split <;> simp
  | _ => rfl

theorem facing_of_length_le (h : t.deliveries.length ≤ k) : t.facing k = none := by
  rw [facing, underWay?, List.getElem?_eq_none h]
  rfl

/-- A notification that has not begun has dealt with nobody. -/
theorem visits_of_length_le (h : b.Proper) (hk : ((start b).play acts).deliveries.length ≤ k) :
    (∀ i, (start b).visits acts k i = 0) ∧ ¬(start b).HasMetClosed acts k := by
  induction acts using List.reverseRecOn with
  | nil => exact ⟨fun _ => rfl, Nat.lt_irrefl 0⟩
  | append_singleton acts x ih =>
      rw [play_concat, length_act (proper_start h acts)] at hk
      have hk' := Nat.le_trans (Nat.le_add_right _ _) hk
      obtain ⟨hvisits, hmet⟩ := ih hk'
      have hnone := facing_of_length_le hk'
      refine ⟨fun i => ?_, fun hm => ?_⟩
      · rw [visits_concat, hvisits, if_neg]
        rintro ⟨-, hi, -⟩
        cases hnone.symm.trans hi
      · rcases (hasMetClosed_concat ..).1 hm with hm | ⟨-, i, hi, -⟩
        · exact hmet hm
        · cases hnone.symm.trans hi

structure Kept (b : Bus) (acts : List Act) (k : Nat) (d : Delivery) : Prop where
  nodup : d.audience.Nodup
  known : ∀ i ∈ d.audience, i < ((start b).play acts).bus.nextId
  suffix : d.notification.rest <:+ d.audience
  /-- It has dealt with everyone for whom it was, except with those who are still to come. -/
  visits : ∀ i, (start b).visits acts k i + d.notification.rest.count i = d.audience.count i
  met : d.notification.metClosed = true ↔ (start b).HasMetClosed acts k
  done : d.stage = .complete → d.notification.rest = []

theorem Kept.proceeds (hk : Kept b acts k d) (h : b.Proper)
    (hp : ((start b).play acts).Proceeds x k d d') : Kept b (acts ++ [x]) k d' := by
  have hknown : ∀ i ∈ d.audience, i < ((start b).play (acts ++ [x])).bus.nextId := fun i hi => by
    rw [play_concat]
    exact Nat.lt_of_lt_of_le (hk.known i hi) (alters_act (proper_start h acts) x).nextId_le
  cases hp with
  | rests stage hv hm hs =>
      exact {
        nodup := hk.nodup
        known := hknown
        suffix := hk.suffix
        visits := fun i => by
          rw [visits_concat, if_neg (hv i)]
          exact hk.visits i
        met := by
          rw [hasMetClosed_concat, or_iff_left hm]
          exact hk.met
        done := fun he => (hs he).elim hk.done id }
  | @visits i rest met hrest hv hm hs =>
      exact {
        nodup := hk.nodup
        known := hknown
        suffix := by
          have hsuffix := hk.suffix
          rw [hrest] at hsuffix
          exact (List.suffix_cons i rest).trans hsuffix
        visits := fun j => by
          have hiff : ((start b).play acts).Visits x k j ↔ i = j :=
            ⟨fun hj => Option.some.inj (hv.2.1.symm.trans hj.2.1), fun he => he ▸ hv⟩
          have hj := hk.visits j
          rw [hrest, List.count_cons] at hj
          rw [visits_concat]
          simp only [hiff]
          simp only [beq_iff_eq] at hj
          omega
        met := by rw [hm, hasMetClosed_concat, hk.met]
        done := fun he => absurd he hs }

theorem kept_notify (h : b.Proper) (acts : List Act) :
    Kept b (acts ++ [.notify]) ((start b).play acts).deliveries.length
      ⟨((start b).play acts).bus.ids, ((start b).play acts).bus.announce, .underWay⟩ := by
  have hproper := proper_start h acts
  obtain ⟨hvisits, hmet⟩ :=
    visits_of_length_le h (Nat.le_refl ((start b).play acts).deliveries.length)
  exact {
    nodup := hproper.nodup
    known := fun i hi => by
      rw [play_concat]
      exact hproper.lt_nextId hi
    suffix := List.suffix_refl _
    visits := fun i => by
      rw [visits_concat, hvisits, if_neg (by rintro ⟨⟨⟩, -⟩), Nat.add_zero, Nat.zero_add]
      rfl
    met := by
      rw [hasMetClosed_concat, or_iff_right hmet]
      exact ⟨by rintro ⟨⟩, by rintro ⟨⟨⟩, -⟩⟩
    done := by rintro ⟨⟩ }

theorem kept_play (h : b.Proper) (hd : ((start b).play acts).deliveries[k]? = some d) :
    Kept b acts k d := by
  induction acts using List.reverseRecOn generalizing d with
  | nil => cases hd
  | append_singleton acts x ih =>
      have hproper := proper_start h acts
      rw [play_concat] at hd
      cases he : ((start b).play acts).deliveries[k]? with
      | some e =>
          obtain ⟨d', hd', hp⟩ := proceeds_act hproper he x
          obtain rfl := Option.some.inj (hd.symm.trans hd')
          exact (ih he).proceeds h hp
      | none =>
          -- the notification is the one that begins
          have hle := List.getElem?_eq_none_iff.1 he
          have hlt := (List.getElem?_eq_some_iff.1 hd).1
          rw [length_act hproper] at hlt
          split at hlt
          · next hx =>
              subst hx
              obtain rfl : k = ((start b).play acts).deliveries.length := by omega
              rw [act, List.getElem?_concat_length] at hd
              obtain rfl := Option.some.inj hd
              exact kept_notify h acts
          · omega

theorem audience_play (h : t.bus.Proper) (hd : t.deliveries[k]? = some d) (acts : List Act) :
    ∃ d', (t.play acts).deliveries[k]? = some d' ∧ d'.audience = d.audience := by
  induction acts generalizing t d with
  | nil => exact ⟨d, hd, rfl⟩
  | cons x acts ih =>
      obtain ⟨d', hd', hp⟩ := proceeds_act h hd x
      obtain ⟨e, he, haudience⟩ := ih ((alters_act h x).proper h) hd'
      refine ⟨e, he, haudience.trans ?_⟩
      cases hp <;> rfl

theorem Kept.visits_of_mem (hk : Kept b acts k d) (hi : i ∈ d.audience)
    (hrest : i ∉ d.notification.rest) : (start b).visits acts k i = 1 := by
  have hvisits := hk.visits i
  rw [List.count_eq_zero_of_not_mem hrest, List.count_eq_one_of_mem hk.nodup hi] at hvisits
  exact hvisits

theorem Kept.visits_of_complete (hk : Kept b acts k d) (hs : d.stage = .complete)
    (hi : i ∈ d.audience) : (start b).visits acts k i = 1 := by
  refine hk.visits_of_mem hi ?_
  rw [hk.done hs]
  exact List.not_mem_nil

theorem Kept.visits_of_mem_rest (hk : Kept b acts k d) (hi : i ∈ d.notification.rest) :
    (start b).visits acts k i = 0 := by
  have hvisits := hk.visits i
  rw [List.count_eq_one_of_mem (hk.nodup.sublist hk.suffix.sublist) hi,
    List.count_eq_one_of_mem hk.nodup (hk.suffix.subset hi)] at hvisits
  omega

/-! ### Signals -/

variable (acts k i) in
/-- A notification deals with an inbox once at most. -/
theorem visits_le_one (h : b.Proper) : (start b).visits acts k i ≤ 1 := by
  by_cases hk : k < ((start b).play acts).deliveries.length
  · have hkept := kept_play h (List.getElem?_eq_getElem hk)
    have hvisits := hkept.visits i
    have hcount := List.nodup_iff_count_le_one.1 hkept.nodup i
    omega
  · rw [(visits_of_length_le h (Nat.le_of_not_lt hk)).1 i]
    exact Nat.zero_le 1

theorem lt_nextId_of_facing (h : b.Proper) (hi : ((start b).play acts).facing k = some i) :
    i < ((start b).play acts).bus.nextId := by
  obtain ⟨d, hd, hhead⟩ := Option.bind_eq_some_iff.1 hi
  have hkept := kept_play h (underWay?_eq_some_iff.1 hd).1
  exact hkept.known i (hkept.suffix.subset (List.mem_of_head? hhead))

variable (acts k i) in
theorem given_le_visits (h : b.Proper) :
    (start b).given acts k i ≤ (start b).visits acts k i := by
  induction acts using List.reverseRecOn with
  | nil => exact Nat.le_refl _
  | append_singleton acts x ih =>
      rw [given_concat, visits_concat]
      exact Nat.add_le_add ih (gives_le (proper_start h acts) x k i)

/-- Under `block` whoever has not gone away has a signal of each notification that has dealt with
the inbox. -/
theorem given_eq_visits (h : b.Proper) (hp : b.policy = .block) (k : Nat)
    (hi : ((start b).play acts).bus.Unclosed i) :
    (start b).given acts k i = (start b).visits acts k i := by
  induction acts using List.reverseRecOn with
  | nil => rfl
  | append_singleton acts x ih =>
      have hproper := proper_start h acts
      rw [play_concat] at hi
      have hbefore := (alters_act hproper x).unclosed hproper hi
      rw [given_concat, visits_concat, ih hbefore]
      congr 1
      rcases hbefore with ho | hle
      · exact gives_eq hproper ((policy_play h acts).trans hp) ho x k
      · -- nobody deals with an inbox that is not there yet
        have hno : ¬((start b).play acts).Visits x k i := fun hv =>
          Nat.not_lt.2 hle (lt_nextId_of_facing h hv.2.1)
        have hzero := gives_le hproper x k i
        rw [if_neg hno] at hzero ⊢
        exact Nat.le_zero.1 hzero

/-- In one act: what is taken out and what is left are what was there and what notifications have
given. The sum may go beyond the notifications that there are, so that it stays the same when
another one begins. -/
theorem queued_act (h : t.bus.Proper) (hi : (t.act x).bus.Unclosed i) {N : Nat}
    (hN : t.deliveries.length ≤ N) :
    t.takes x i + (t.act x).bus.queued i =
      t.bus.queued i + ∑ k ∈ Finset.range N, t.gives x k i := by
  have ha := alters_act h x
  by_cases hx : ∃ k, x = .serve k
  · obtain ⟨k', rfl⟩ := hx
    have hsum : ∑ k ∈ Finset.range N, t.gives (.serve k') k i =
        (t.act (.serve k')).bus.queued i - t.bus.queued i := by
      by_cases hk : k' < N
      · simp [gives, hk]
      · -- the step is of a notification that has not begun
        have hself : t.act (.serve k') = t := by
          have hnone : t.underWay? k' = none := by
            rw [underWay?, List.getElem?_eq_none (Nat.le_trans hN (Nat.le_of_not_lt hk))]
            rfl
          rw [act, hnone]
        simp [gives, hself]
    rw [hsum]
    rcases ha.queued h hi with hq | ⟨htakes, -, hle⟩
    · have htakes : t.takes (.serve k') i = 0 := rfl
      omega
    · omega
  · have hzero (k : Nat) : t.gives x k i = 0 := if_neg fun he => hx ⟨k, he⟩
    simp only [hzero, Finset.sum_const_zero, Nat.add_zero]
    exact (ha.queued h hi).resolve_right fun hserve => hx hserve.2.1

/-- What has been taken out of the inbox of a watcher that is there, and what is left, are what was
there at the beginning and what notifications have given. -/
theorem drained_add_queued (h : b.Proper) (hi : ((start b).play acts).bus.Unclosed i) {N : Nat}
    (hN : ((start b).play acts).deliveries.length ≤ N) :
    (start b).drained acts i + ((start b).play acts).bus.queued i =
      b.queued i + ∑ k ∈ Finset.range N, (start b).given acts k i := by
  induction acts using List.reverseRecOn with
  | nil => simp [drained, given, total, play, start]
  -- whoever has not gone away now had not gone away before, so the induction goes on from the end
  | append_singleton acts x ih =>
      have hproper := proper_start h acts
      rw [play_concat] at hi hN
      rw [length_act hproper] at hN
      have hle := Nat.le_trans (Nat.le_add_right _ _) hN
      have hbefore := ih ((alters_act hproper x).unclosed hproper hi) hle
      have hact := queued_act hproper hi hle
      simp only [drained_concat, given_concat, play_concat, Finset.sum_add_distrib]
      omega

def servers (t : Traffic) (acts : List Act) (i : Nat) : Finset Nat :=
  (Finset.range (t.play acts).deliveries.length).filter fun k => 0 < t.given acts k i

theorem sum_given (h : b.Proper) (acts : List Act) (i : Nat) :
    ∑ k ∈ Finset.range ((start b).play acts).deliveries.length, (start b).given acts k i =
      ((start b).servers acts i).card := by
  rw [servers, Finset.card_filter]
  refine Finset.sum_congr rfl fun k _ => ?_
  have hle := Nat.le_trans (given_le_visits acts k i h) (visits_le_one acts k i h)
  split <;> omega

end ServiceMesh.Traffic
