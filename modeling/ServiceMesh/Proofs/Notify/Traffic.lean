import ServiceMesh.Proofs.Notify.Serving

/-!
The traffic on a bus. Any number of notifications are under way at once. One of them goes on by a
watcher, or another one begins, or watchers come, take signals out and go away, and nothing is
assumed about the order, so the runs are all interleavings. When a signal is taken out of an inbox
at which several notifications wait, any of them may be let in.

What a run comes to is counted along the run: a notification has given an inbox a signal if there is
one more in it after a step of this notification.
-/

namespace ServiceMesh

inductive Delivery.Stage where
  | underWay
  | complete
  | givenUp
  deriving DecidableEq, Repr

/-- A notification, with the inboxes that were on the bus when it began. -/
structure Delivery where
  audience : List Nat
  notification : Notification
  stage : Delivery.Stage
  deriving DecidableEq, Repr

def Delivery.resume (d : Delivery) : Option Notification → Delivery
  | some n => { d with notification := n }
  | none => { d with stage := .complete }

/-- A bus and all notifications so far, which go by the order in which they began. -/
structure Traffic where
  bus : Bus
  deliveries : List Delivery := []
  deriving DecidableEq, Repr

namespace Traffic

inductive Act where
  /-- A notification begins. -/
  | notify
  /-- A notification goes on by one watcher, or is complete; it may have to wait. -/
  | serve (k : Nat)
  /-- A notification is given up where it stands. -/
  | giveUp (k : Nat)
  | addWatcher (capacity : Nat)
  | subscribe
  | drain (i limit : Nat)
  | close (i : Nat)
  deriving DecidableEq, Repr

def underWay? (t : Traffic) (k : Nat) : Option Delivery :=
  t.deliveries[k]?.filter fun d => d.stage = .underWay

def act (t : Traffic) : Act → Traffic
  | .notify =>
    { t with deliveries := t.deliveries ++ [⟨t.bus.ids, t.bus.announce, .underWay⟩] }
  | .serve k =>
    match t.underWay? k with
    | none => t
    | some d =>
      match t.bus.serve d.notification with
      | none => t
      | some (bus, n) => { bus, deliveries := t.deliveries.set k (d.resume n) }
  | .giveUp k =>
    match t.underWay? k with
    | none => t
    | some d => { t with deliveries := t.deliveries.set k { d with stage := .givenUp } }
  | .addWatcher capacity => { t with bus := (t.bus.addWatcher capacity).1 }
  | .subscribe => { t with bus := t.bus.subscribe.1 }
  | .drain i limit => { t with bus := (t.bus.drain i limit).1 }
  | .close i => { t with bus := t.bus.close i }

def play (t : Traffic) (acts : List Act) : Traffic := acts.foldl act t

/-- Adds up over a run what each act comes to in the traffic in which it happens. -/
def total (f : Traffic → Act → Nat) : Traffic → List Act → Nat
  | _, [] => 0
  | t, x :: acts => f t x + total f (t.act x) acts

/-! ### What can be seen of a notification -/

/-- The inbox that a notification has reached: it is served next. -/
def facing (t : Traffic) (k : Nat) : Option Nat :=
  (t.underWay? k).bind fun d => d.notification.rest.head?

def Suspended (t : Traffic) (k : Nat) : Prop :=
  ∃ d ∈ t.underWay? k, t.bus.serve d.notification = none

def Complete (t : Traffic) (k : Nat) : Prop := ∃ d ∈ t.deliveries[k]?, d.stage = .complete

instance (t : Traffic) (k : Nat) : Decidable (t.Suspended k) :=
  inferInstanceAs (Decidable (∃ d ∈ t.underWay? k, t.bus.serve d.notification = none))

instance (t : Traffic) (k : Nat) : Decidable (t.Complete k) :=
  inferInstanceAs (Decidable (∃ d ∈ t.deliveries[k]?, d.stage = .complete))

/-- The act is the step in which a notification deals with an inbox. -/
def Visits (t : Traffic) (x : Act) (k i : Nat) : Prop :=
  x = .serve k ∧ t.facing k = some i ∧ ¬t.Suspended k

def MeetsClosed (t : Traffic) (x : Act) (k : Nat) : Prop :=
  x = .serve k ∧ ∃ i ∈ t.facing k, ¬t.bus.IsOpen i

instance (t : Traffic) (x : Act) (k i : Nat) : Decidable (t.Visits x k i) :=
  inferInstanceAs (Decidable (x = .serve k ∧ t.facing k = some i ∧ ¬t.Suspended k))

instance (t : Traffic) (x : Act) (k : Nat) : Decidable (t.MeetsClosed x k) :=
  inferInstanceAs (Decidable (x = .serve k ∧ ∃ i ∈ t.facing k, ¬t.bus.IsOpen i))

def gives (t : Traffic) (x : Act) (k i : Nat) : Nat :=
  if x = .serve k then (t.act x).bus.queued i - t.bus.queued i else 0

def takes (t : Traffic) (x : Act) (i : Nat) : Nat :=
  match x with
  | .drain j limit => if j = i then (t.bus.drain j limit).2 else 0
  | _ => 0

/-! ### What a run comes to -/

def visits (t : Traffic) (acts : List Act) (k i : Nat) : Nat :=
  t.total (fun t x => if t.Visits x k i then 1 else 0) acts

def given (t : Traffic) (acts : List Act) (k i : Nat) : Nat :=
  t.total (fun t x => t.gives x k i) acts

def drained (t : Traffic) (acts : List Act) (i : Nat) : Nat :=
  t.total (fun t x => t.takes x i) acts

def HasMetClosed (t : Traffic) (acts : List Act) (k : Nat) : Prop :=
  0 < t.total (fun t x => if t.MeetsClosed x k then 1 else 0) acts

instance (t : Traffic) (acts : List Act) (k : Nat) : Decidable (t.HasMetClosed acts k) :=
  Nat.decLt _ _

variable {t : Traffic} {acts : List Act} {x : Act} {k i j : Nat} {d : Delivery}

theorem play_append (t : Traffic) (acts acts' : List Act) :
    t.play (acts ++ acts') = (t.play acts).play acts' :=
  List.foldl_append

theorem play_concat (t : Traffic) (acts : List Act) (x : Act) :
    t.play (acts ++ [x]) = (t.play acts).act x :=
  play_append t acts [x]

theorem total_concat (f : Traffic → Act → Nat) (t : Traffic) (acts : List Act) (x : Act) :
    t.total f (acts ++ [x]) = t.total f acts + f (t.play acts) x := by
  induction acts generalizing t with
  | nil => exact Nat.add_comm _ _
  | cons y acts ih =>
      rw [List.cons_append, total, ih, total, Nat.add_assoc]
      rfl

theorem visits_concat (t : Traffic) (acts : List Act) (x : Act) (k i : Nat) :
    t.visits (acts ++ [x]) k i =
      t.visits acts k i + if (t.play acts).Visits x k i then 1 else 0 :=
  total_concat _ t acts x

theorem given_concat (t : Traffic) (acts : List Act) (x : Act) (k i : Nat) :
    t.given (acts ++ [x]) k i = t.given acts k i + (t.play acts).gives x k i :=
  total_concat _ t acts x

theorem drained_concat (t : Traffic) (acts : List Act) (x : Act) (i : Nat) :
    t.drained (acts ++ [x]) i = t.drained acts i + (t.play acts).takes x i :=
  total_concat _ t acts x

theorem hasMetClosed_concat (t : Traffic) (acts : List Act) (x : Act) (k : Nat) :
    t.HasMetClosed (acts ++ [x]) k ↔ t.HasMetClosed acts k ∨ (t.play acts).MeetsClosed x k := by
  rw [HasMetClosed, total_concat, Nat.add_pos_iff_pos_or_pos, HasMetClosed]
  refine or_congr_right ?_
  split
  · next hm => exact iff_of_true Nat.one_pos hm
  · next hm => exact iff_of_false (Nat.lt_irrefl 0) hm

/-! ### The steps of a notification -/

theorem underWay?_eq_some_iff :
    t.underWay? k = some d ↔ t.deliveries[k]? = some d ∧ d.stage = .underWay := by
  simp [underWay?]

theorem not_complete_of_underWay? (h : t.underWay? k = some d) : ¬t.Complete k := by
  rintro ⟨e, he, hs⟩
  obtain ⟨hd, hu⟩ := underWay?_eq_some_iff.1 h
  obtain rfl := Option.some.inj (hd.symm.trans he)
  cases hu.symm.trans hs

theorem facing_eq (h : t.underWay? k = some d) : t.facing k = d.notification.rest.head? := by
  rw [facing, h]
  rfl

/-- Only under `block`, and only at an open inbox without room, a notification cannot go on. -/
theorem suspended_iff (h : t.bus.Proper) :
    t.Suspended k ↔
      t.bus.policy = .block ∧ ∃ i, t.facing k = some i ∧ t.bus.IsOpen i ∧ t.bus.IsFull i := by
  rw [Suspended]
  cases hd : t.underWay? k with
  | none => simp [facing, hd]
  | some d =>
      obtain ⟨audience, ⟨rest, met⟩, stage⟩ := d
      simp only [Option.mem_some_iff, exists_eq_left', facing_eq hd]
      cases rest with
      | nil => simp [Bus.serve]
      | cons i rest =>
          rw [Bus.serve_cons h]
          by_cases ho : t.bus.IsOpen i <;> simp [ho]

inductive Goes (t : Traffic) (k : Nat) : Traffic → Prop where
  | idle (h : ∀ i, t.facing k = some i → t.Suspended k) : t.Goes k t
  | complete {d : Delivery} (hd : t.underWay? k = some d) (hrest : d.notification.rest = []) :
      t.Goes k
        { bus := if d.notification.metClosed then t.bus.prune else t.bus
          deliveries := t.deliveries.set k (d.resume none) }
  /-- In a full inbox the signal is lost. -/
  | signal {d : Delivery} {i : Nat} {rest : List Nat} (hd : t.underWay? k = some d)
      (hrest : d.notification.rest = i :: rest) (hgo : ¬t.Suspended k) (ho : t.bus.IsOpen i) :
      t.Goes k
        { bus := t.bus.fill i
          deliveries := t.deliveries.set k (d.resume (some ⟨rest, d.notification.metClosed⟩)) }
  | pass {d : Delivery} {i : Nat} {rest : List Nat} (hd : t.underWay? k = some d)
      (hrest : d.notification.rest = i :: rest) (hgo : ¬t.Suspended k) (hno : ¬t.bus.IsOpen i) :
      t.Goes k { t with deliveries := t.deliveries.set k (d.resume (some ⟨rest, true⟩)) }

theorem goes_serve (h : t.bus.Proper) (k : Nat) : t.Goes k (t.act (.serve k)) := by
  rw [act]
  cases hd : t.underWay? k with
  | none => exact .idle fun i hi => by simp [facing, hd] at hi
  | some d =>
      dsimp only
      cases hs : t.bus.serve d.notification with
      | none => exact .idle fun _ _ => ⟨d, hd, hs⟩
      | some r =>
          have hgo : ¬t.Suspended k := by
            rintro ⟨e, he, hnone⟩
            obtain rfl := Option.some.inj (hd.symm.trans he)
            cases hs.symm.trans hnone
          cases hrest : d.notification.rest with
          | nil =>
              rw [Bus.serve, hrest] at hs
              obtain rfl := Option.some.inj hs
              exact .complete hd hrest
          | cons i rest =>
              have heq : d.notification = ⟨i :: rest, d.notification.metClosed⟩ := by rw [← hrest]
              rw [heq, Bus.serve_cons h] at hs
              split at hs
              · next ho =>
                  split at hs
                  · cases hs
                  · obtain rfl := Option.some.inj hs
                    exact .signal hd hrest hgo ho
              · next hno =>
                  obtain rfl := Option.some.inj hs
                  exact .pass hd hrest hgo hno

/-- Where a notification is not suspended, its step deals with the inbox that it has reached. -/
theorem visits_iff {rest : List Nat} (hd : t.underWay? k = some d)
    (hrest : d.notification.rest = j :: rest) (hgo : ¬t.Suspended k) :
    t.Visits (.serve k) k i ↔ i = j := by
  simp [Visits, facing_eq hd, hrest, hgo, eq_comm]

theorem act_bus_of_isOpen (h : t.bus.Proper) (hi : t.facing k = some i) (hgo : ¬t.Suspended k)
    (ho : t.bus.IsOpen i) : (t.act (.serve k)).bus = t.bus.fill i := by
  have hv : t.Visits (.serve k) k i := ⟨rfl, hi, hgo⟩
  have hgoes := goes_serve h k
  generalize t.act (.serve k) = t' at hgoes ⊢
  cases hgoes with
  | idle hs => exact absurd (hs i hi) hgo
  | complete hd hrest => simp [facing_eq hd, hrest] at hi
  | signal hd hrest hgo _ => rw [(visits_iff hd hrest hgo).1 hv]
  | pass hd hrest hgo hno => exact absurd ((visits_iff hd hrest hgo).1 hv ▸ ho) hno

theorem act_serve {b : Bus} {n : Option Notification} (hd : t.underWay? k = some d)
    (hs : t.bus.serve d.notification = some (b, n)) :
    t.act (.serve k) = { bus := b, deliveries := t.deliveries.set k (d.resume n) } := by
  rw [act, hd]
  dsimp only
  rw [hs]

theorem underWay?_set (hd : t.underWay? k = some d) (b : Bus) (n : Notification) :
    underWay? { bus := b, deliveries := t.deliveries.set k (d.resume (some n)) } k =
      some { d with notification := n } := by
  obtain ⟨hk, hstage⟩ := underWay?_eq_some_iff.1 hd
  have hlt := (List.getElem?_eq_some_iff.1 hk).1
  exact underWay?_eq_some_iff.2 ⟨List.getElem?_set_self hlt, hstage⟩

/-- A notification that goes on as far as it gets takes steps in a row. Then it is complete, or it
is suspended. -/
theorem play_serve_advance (hd : t.underWay? k = some d) :
    ∃ m, (t.play (.replicate m (.serve k))).bus = (t.bus.advance d.notification).1 ∧
      ((t.bus.advance d.notification).2 = none → (t.play (.replicate m (.serve k))).Complete k) ∧
      ∀ n, (t.bus.advance d.notification).2 = some n →
        (t.play (.replicate m (.serve k))).underWay? k = some { d with notification := n } ∧
          (t.play (.replicate m (.serve k))).Suspended k := by
  induction hlength : d.notification.rest.length using Nat.strongRecOn generalizing t d with
  | ind l ih =>
      have hlt := (List.getElem?_eq_some_iff.1 (underWay?_eq_some_iff.1 hd).1).1
      rw [Bus.advance_eq]
      cases hs : t.bus.serve d.notification with
      | none =>
          refine ⟨0, rfl, by rintro ⟨⟩, fun n hn => ?_⟩
          obtain rfl := Option.some.inj hn
          exact ⟨hd, d, hd, hs⟩
      | some r =>
          obtain ⟨b, n'⟩ := r
          have hact := act_serve hd hs
          cases n' with
          | none =>
              refine ⟨1, congrArg bus hact, fun _ => ?_, by rintro n ⟨⟩⟩
              change (t.act (.serve k)).Complete k
              rw [hact]
              exact ⟨_, List.getElem?_set_self hlt, rfl⟩
          | some n' =>
              -- one watcher less is left, whether it was given a signal or passed over
              have hshort : n'.rest.length < l := by
                rw [← hlength]
                generalize d.notification = n at hs
                cases Bus.serves_of_serve hs <;> exact Nat.lt_succ_self _
              obtain ⟨m, hm⟩ := ih _ hshort (underWay?_set hd b n') rfl
              refine ⟨m + 1, ?_⟩
              rw [List.replicate_succ, play, List.foldl_cons, hact]
              exact hm

/-! ### What an act does to the bus -/

inductive Alters (b : Bus) : Act → Bus → Prop where
  | same (x : Act) (h : ∀ i limit, x ≠ .drain i limit) : Alters b x b
  | fill (k : Nat) {i : Nat} (h : b.IsOpen i) : Alters b (.serve k) (b.fill i)
  | prune (k : Nat) : Alters b (.serve k) b.prune
  | join (x : Act) (capacity : Nat) (h : ∀ i limit, x ≠ .drain i limit) :
      Alters b x (b.addWatcher capacity).1
  | drain (i limit : Nat) : Alters b (.drain i limit) (b.drain i limit).1
  | close (i : Nat) : Alters b (.close i) (b.close i)

theorem alters_act (h : t.bus.Proper) (x : Act) : Alters t.bus x (t.act x).bus := by
  cases x with
  | notify => exact .same _ (by rintro i limit ⟨⟩)
  | serve k =>
      have hsame : Alters t.bus (.serve k) t.bus := .same _ (by rintro i limit ⟨⟩)
      have hgoes := goes_serve h k
      generalize t.act (.serve k) = t' at hgoes ⊢
      cases hgoes with
      | idle _ => exact hsame
      | complete hd hrest =>
          dsimp only
          split
          · exact .prune k
          · exact hsame
      | signal hd hrest hgo ho => exact .fill k ho
      | pass hd hrest hgo hno => exact hsame
  | giveUp k =>
      rw [act]
      split <;> exact .same _ (by rintro i limit ⟨⟩)
  | addWatcher capacity => exact .join _ capacity (by rintro i limit ⟨⟩)
  | subscribe => exact .join _ t.bus.capacity (by rintro i limit ⟨⟩)
  | drain i limit => exact .drain i limit
  | close i => exact .close i

theorem takes_eq_zero (h : ∀ i limit, x ≠ .drain i limit) (i : Nat) : t.takes x i = 0 := by
  cases x with
  | drain j limit => exact absurd rfl (h j limit)
  | _ => rfl

namespace Alters

variable {b b' : Bus}

theorem proper (ha : Alters b x b') (h : b.Proper) : b'.Proper := by
  cases ha with
  | same x _ => exact h
  | fill k _ => exact h.fill _
  | prune k => exact h.prune
  | join x capacity _ => exact h.addWatcher capacity
  | drain i limit => exact h.drain i limit
  | close i => exact h.close i

theorem policy (ha : Alters b x b') : b'.policy = b.policy := by
  cases ha with
  | drain i limit =>
      rw [Bus.drain]
      split <;> rfl
  | _ => rfl

theorem nextId_le (ha : Alters b x b') : b.nextId ≤ b'.nextId := by
  cases ha with
  | join x capacity _ => exact Nat.le_succ _
  | drain i limit => exact Nat.le_of_eq (Bus.nextId_drain b i limit).symm
  | _ => exact Nat.le_refl _

/-- Whoever watches is there until the watcher goes away. -/
theorem isOpen (ha : Alters b x b') (h : b.Proper) (ho : b.IsOpen i) (hx : x ≠ .close i) :
    b'.IsOpen i := by
  cases ha with
  | same x _ => exact ho
  | fill k _ => exact Bus.isOpen_fill.2 ho
  | prune k => exact (Bus.isOpen_prune h).2 ho
  | join x capacity _ => exact (Bus.isOpen_addWatcher h capacity).2 (.inl ho)
  | drain j limit => exact (Bus.isOpen_drain limit).2 ho
  | close j => exact Bus.isOpen_close.2 ⟨ho, fun hij => hx (by rw [hij])⟩

/-- The order is kept, and new inboxes come behind the others. -/
theorem order (ha : Alters b x b') :
    ∃ new, (∀ j ∈ new, b.nextId ≤ j) ∧ b'.ids.Sublist (b.ids ++ new) := by
  have hsame {c : Bus} (hc : c.ids.Sublist b.ids) :
      ∃ new, (∀ j ∈ new, b.nextId ≤ j) ∧ c.ids.Sublist (b.ids ++ new) :=
    ⟨[], by rintro j ⟨⟩, by rwa [List.append_nil]⟩
  cases ha with
  | same x _ => exact hsame (.refl _)
  | fill k _ => exact hsame (by rw [Bus.ids_fill])
  | prune k => exact hsame b.ids_prune_sublist
  | join x capacity _ =>
      refine ⟨[b.nextId], fun j hj => ?_, by rw [Bus.ids_addWatcher]⟩
      exact Nat.le_of_eq (List.mem_singleton.1 hj).symm
  | drain i limit => exact hsame (by rw [Bus.ids_drain])
  | close i => exact hsame (by rw [Bus.ids_close])

theorem unclosed (ha : Alters b x b') (h : b.Proper) (hi : b'.Unclosed i) : b.Unclosed i := by
  cases ha with
  | same x _ => exact hi
  | fill k _ => exact hi.imp_left Bus.isOpen_fill.1
  | prune k => exact hi.imp_left (Bus.isOpen_prune h).1
  | join x capacity _ =>
      rcases hi with ho | hle
      · exact ((Bus.isOpen_addWatcher h capacity).1 ho).imp_right fun he => Nat.le_of_eq he.symm
      · exact .inr (Nat.le_of_succ_le hle)
  | drain j limit =>
      rw [Bus.Unclosed, Bus.isOpen_drain, Bus.nextId_drain] at hi
      exact hi
  | close j => exact hi.imp_left fun ho => (Bus.isOpen_close.1 ho).1

/-- As long as a watcher has not gone away, what is taken out of its inbox or is still there was
there before, or a notification has added to it. -/
theorem queued (ha : Alters t.bus x b') (h : t.bus.Proper) (hi : b'.Unclosed i) :
    t.takes x i + b'.queued i = t.bus.queued i ∨
      t.takes x i = 0 ∧ (∃ k, x = .serve k) ∧ t.bus.queued i ≤ b'.queued i := by
  cases ha with
  | same x hx =>
      rw [takes_eq_zero hx, Nat.zero_add]
      exact .inl rfl
  | fill k ho => exact .inr ⟨rfl, ⟨k, rfl⟩, (Bus.queued_fill_bounds h ho i).1⟩
  | prune k =>
      refine .inr ⟨rfl, ⟨k, rfl⟩, ?_⟩
      rw [Bus.queued_prune h]
      split
      · exact Nat.le_refl _
      · next hno =>
          have hle : t.bus.nextId ≤ i := hi.resolve_left fun ho => hno ((Bus.isOpen_prune h).1 ho)
          exact Nat.le_of_eq (h.queued_eq_zero hle)
  | join x capacity hx =>
      rw [takes_eq_zero hx, Bus.queued_addWatcher h, Nat.zero_add]
      exact .inl rfl
  | drain j limit =>
      refine .inl ?_
      rw [takes]
      split
      · next hj =>
          subst hj
          exact Bus.drained_add_queued t.bus j limit
      · next hj =>
          rw [Nat.zero_add]
          exact Bus.queued_congr (Bus.sink?_drain_of_ne (Ne.symm hj) t.bus limit)
  | close j =>
      refine .inl ?_
      rw [takes_eq_zero (by rintro i limit ⟨⟩), Nat.zero_add]
      by_cases hj : i = j
      · have hle : t.bus.nextId ≤ i := hi.resolve_left fun ho => (Bus.isOpen_close.1 ho).2 hj
        rw [h.queued_eq_zero hle, (h.close j).queued_eq_zero hle]
      · exact Bus.queued_congr (Bus.sink?_close_of_ne hj t.bus)

end Alters

/-! ### What a step gives -/

/-- A notification gives an inbox one signal at most, in the step in which it deals with it. -/
theorem gives_le (h : t.bus.Proper) (x : Act) (k i : Nat) :
    t.gives x k i ≤ if t.Visits x k i then 1 else 0 := by
  rw [gives]
  split
  · next hx =>
      subst hx
      have hgoes := goes_serve h k
      generalize t.act (.serve k) = t' at hgoes ⊢
      cases hgoes with
      | idle _ => simp
      | complete hd hrest =>
          dsimp only
          split
          · rw [Bus.queued_prune h]
            split <;> simp
          · simp
      | signal hd hrest hgo ho =>
          have hle := (Bus.queued_fill_bounds h ho i).2
          simp only [visits_iff hd hrest hgo]
          omega
      | pass hd hrest hgo hno => simp
  · exact Nat.zero_le _

/-- Under `block` it gives exactly one to an inbox that is open. -/
theorem gives_eq (h : t.bus.Proper) (hp : t.bus.policy = .block) (ho : t.bus.IsOpen i) (x : Act)
    (k : Nat) : t.gives x k i = if t.Visits x k i then 1 else 0 := by
  refine Nat.le_antisymm (gives_le h x k i) ?_
  split
  · next hv =>
      obtain ⟨rfl, hfacing, hgo⟩ := hv
      have hroom : ¬t.bus.IsFull i := fun hf =>
        hgo ((suspended_iff h).2 ⟨hp, i, hfacing, ho, hf⟩)
      rw [gives, if_pos rfl, act_bus_of_isOpen h hfacing hgo ho, Bus.queued_fill_of_room h ho hroom]
      omega
  · exact Nat.zero_le _

end Traffic

end ServiceMesh
