import ServiceMesh.Proofs.Lease.Retired
import ServiceMesh.Proofs.Lease.Upkeep

/-!
Rounds of upkeep that do not overlap. At every moment the member has one round at most, and all that
happens to it is that the round begins, goes on or is given up, that events come, or that time
passes and others use the store.
-/

namespace ServiceMesh

def Wait.roundPoint? : Wait → Option RoundPoint
  | .call f => (Next.call f.point).roundPoint?
  | .notice _ p => (Next.notify p).roundPoint?

theorem Leased.Issues.roundPoint? {l : Leased} {now : Nat} {n : Next}
    {r : Wait ⊕ Except Failure Unit} (h : l.Issues now n r) {y : Wait}
    (hy : r.getLeft? = some y) : y.roundPoint? = n.roundPoint? := by
  cases h with
  | done r => cases hy
  | notify n p =>
      obtain rfl := Option.some.inj hy
      rfl
  | call p =>
      obtain rfl := Option.some.inj hy
      rfl

theorem CallPoint.errand_ne_application (p : CallPoint) : p.errand ≠ .application := by
  cases p <;> rintro ⟨⟩

def Wait.events : Wait → List Event
  | .notice _ (.applied rest) => rest
  | _ => []

def Work.events (s : Store) (w : Work) : List Event :=
  match w.wait?, w with
  | some x, _ => x.events
  | none, watch _ (.streaming feed injected) =>
    match (feed.next s).2, injected with
    | some (.ok e), _ => [e]
    | none, .batch es :: _ => es
    | _, _ => []
  | none, _ => []

theorem Work.events_of_wait? {w : Work} {x : Wait} (h : w.wait? = some x) (s : Store) :
    w.events s = x.events := by
  rw [events.eq_def, h]

/-- What others do to a member, and its own loops beside the round. Only these events come. -/
inductive Member.Heeds (m : Member) (es : List Event) : Member → Prop where
  | nothing : m.Heeds es m
  | events : m.Heeds es (m.applyEvents es).1
  | break : m.Heeds es m.watchBroken
  | started : m.Heeds es { m with isStarted := true }

theorem Member.Heeds.keeps {m m' : Member} {es : List Event} (h : m.Heeds es m') :
    m'.node = m.node ∧ m'.settings = m.settings ∧ m'.isCancelled = m.isCancelled ∧
      m'.lease = m.lease ∧ m'.failures = m.failures ∧
      m'.snapshot.isSome = m.snapshot.isSome := by
  cases h with
  | nothing => exact ⟨rfl, rfl, rfl, rfl, rfl, rfl⟩
  | events =>
      have hs := m.isSome_snapshot_applyEvents es
      obtain ⟨t, ht⟩ := m.applyEvents_fst es
      rw [ht] at hs ⊢
      exact ⟨rfl, rfl, rfl, rfl, rfl, hs⟩
  | «break» => exact ⟨rfl, rfl, rfl, rfl, rfl, rfl⟩
  | started => exact ⟨rfl, rfl, rfl, rfl, rfl, rfl⟩

theorem Member.Heeds.isSound {m m' : Member} {es : List Event} (h : m.Heeds es m')
    (hs : m.IsSound) : m'.IsSound := by
  obtain ⟨-, hset, hc, hl, hf, hsnap⟩ := h.keeps
  refine ⟨hc.trans hs.isCancelled, by rw [hf, hset]; exact hs.failures, fun hn => ?_⟩
  rw [hs.snapshot (hl ▸ hn)] at hsnap
  exact Option.not_isSome_iff_eq_none.1 (by rw [hsnap]; exact Bool.false_ne_true)

namespace Scene

variable {p : String} {σ σ' : Scene} {a : Cluster.Act} {o o' : Option (Nat × Wait)}

def OneRound (σ : Scene) : Prop :=
  ∀ i j x y, σ.wait? i = some x → σ.wait? j = some y → x.errand = .upkeep → y.errand = .upkeep →
    i = j

/-- The round that is under way: the task that runs it, and what it waits for. -/
def InRound (σ : Scene) (o : Option (Nat × Wait)) : Prop :=
  ∀ id x, (σ.wait? id = some x ∧ x.errand = .upkeep) ↔ o = some (id, x)

def events (p : String) (σ : Scene) : Cluster.Act → List Event
  | .start q (.apply es) => if q = p then es else []
  | .step id =>
    match σ.work id with
    | some w => w.events σ.store
    | none => []
  | _ => []

theorem events_step {id : Nat} {w : Work} (hw : σ.work id = some w) :
    σ.events p (.step id) = w.events σ.store := by
  rw [events, hw]

theorem events_start (σ : Scene) (es : List Event) : σ.events p (.start p (.apply es)) = es := by
  rw [events, if_pos rfl]

/-- What an act does to the member and its round. -/
inductive RoundStep (p : String) (σ : Scene) :
    Option (Nat × Wait) → Cluster.Act → Scene → Option (Nat × Wait) → Prop where
  /-- Others use the store, and time passes. -/
  | elsewhere {o : Option (Nat × Wait)} {a : Cluster.Act} {σ' : Scene} (h : σ.Spares σ')
      (hother : ∀ id, a = .step id → σ.work id = none) : σ.RoundStep p o a σ' o
  | heeds {o : Option (Nat × Wait)} {a : Cluster.Act} {σ' : Scene}
      (hm : σ.member.Heeds (σ.events p a) σ'.member) (hs : σ'.store = σ.store) :
      σ.RoundStep p o a σ' o
  | begins {a : Cluster.Act} {σ' : Scene} {id : Nat} {x : Wait} (hm : σ'.member = σ.member)
      (hs : σ'.store = σ.store)
      (h : σ.Continues (σ.member, σ.member.tick σ.now) (.inl x)) :
      σ.RoundStep p none a σ' (some (id, x))
  | advances {σ' : Scene} {id : Nat} {x : Wait} {r : Wait ⊕ Except Failure Unit}
      (h : σ.Advances x σ'.member σ'.store r) :
      σ.RoundStep p (some (id, x)) (.step id) σ' (r.getLeft?.map (Prod.mk id))
  /-- The round is given up where it stands. -/
  | drops {σ' : Scene} {id : Nat} {x : Wait} (hm : σ'.member = σ.member)
      (hs : σ'.store = σ.store) : σ.RoundStep p (some (id, x)) (.drop id) σ' none

/-- A member that is not withdrawn, with the round that is under way. -/
structure Upheld (σ : Scene) (o : Option (Nat × Wait)) : Prop where
  withdraws : σ.Withdraws
  sound : σ.member.IsSound
  round : σ.InRound o
  fits : ∀ r ∈ o, ∀ y ∈ r.2.roundPoint?, y.Fits σ.member

theorem InRound.of_wait? (h : σ.InRound o) (hw : σ'.wait? = σ.wait?) : σ'.InRound o := by
  intro id x
  rw [hw]
  exact h id x

/-- A task that neither was nor is in a round has changed. -/
theorem InRound.of_ne (h : σ.InRound o) {i : Nat} {y : Option Wait}
    (hy : ∀ x, y = some x → x.errand ≠ .upkeep)
    (hold : ∀ x, σ.wait? i = some x → x.errand ≠ .upkeep)
    (hw : ∀ j, σ'.wait? j = if j = i then y else σ.wait? j) : σ'.InRound o := by
  intro id x
  rw [hw]
  split
  · next hid =>
      subst hid
      constructor
      · rintro ⟨hx, he⟩
        exact absurd he (hy x hx)
      · intro ho
        obtain ⟨hx, he⟩ := (h id x).2 ho
        exact absurd he (hold x hx)
  · exact h id x

/-- The task of the round has changed. -/
theorem InRound.of_eq {i : Nat} {x : Wait} (h : σ.InRound (some (i, x))) {y : Option Wait}
    (hy : ∀ x ∈ y, x.errand = .upkeep) (hw : ∀ j, σ'.wait? j = if j = i then y else σ.wait? j) :
    σ'.InRound (y.map (Prod.mk i)) := by
  intro id z
  rw [hw]
  split
  · next hid =>
      subst hid
      constructor
      · rintro ⟨rfl, he⟩
        rfl
      · intro ho
        obtain ⟨w, rfl, hz⟩ := Option.map_eq_some_iff.1 ho
        obtain rfl := (Prod.mk.inj hz).2
        exact ⟨rfl, hy _ rfl⟩
  · next hid =>
      constructor
      · rintro ⟨hz, he⟩
        obtain ⟨rfl, -⟩ := Prod.mk.inj (Option.some.inj ((h id z).1 ⟨hz, he⟩))
        exact absurd rfl hid
      · intro ho
        obtain ⟨w, rfl, hz⟩ := Option.map_eq_some_iff.1 ho
        obtain ⟨rfl, -⟩ := Prod.mk.inj hz
        exact absurd rfl hid

/-- A round has begun, beside no other. -/
theorem InRound.begins (h : σ.InRound o) (hone : σ'.OneRound) {i : Nat} {y : Wait}
    (hy : y.errand = .upkeep) (hold : ∀ x, σ.wait? i = some x → x.errand ≠ .upkeep)
    (hw : ∀ j, σ'.wait? j = if j = i then some y else σ.wait? j) :
    o = none ∧ σ'.InRound (some (i, y)) := by
  have hnew : σ'.wait? i = some y := by rw [hw, if_pos rfl]
  have hnone : o = none := by
    cases o with
    | none => rfl
    | some r =>
        obtain ⟨j, x⟩ := r
        obtain ⟨hx, he⟩ := (h j x).2 rfl
        by_cases hj : j = i
        · subst hj
          exact absurd he (hold x hx)
        · have hx' : σ'.wait? j = some x := by rw [hw, if_neg hj, hx]
          exact absurd (hone j i x y hx' hnew he hy) hj
  refine ⟨hnone, fun id x => ?_⟩
  subst hnone
  constructor
  · rintro ⟨hx, he⟩
    obtain rfl := hone id i x y hx hnew he hy
    rw [Option.some.inj (hx.symm.trans hnew)]
  · intro ho
    obtain ⟨rfl, rfl⟩ := Prod.mk.inj (Option.some.inj ho)
    exact ⟨hnew, hy⟩

/-- A member that is not withdrawn is not being withdrawn. -/
theorem Upheld.errand_ne (h : σ.Upheld o) {id : Nat} {x : Wait} (hx : σ.wait? id = some x) :
    x.errand ≠ .withdrawal := by
  intro he
  cases (h.withdraws id x hx he).symm.trans h.sound.isCancelled

/-- A routine that applies events changes nothing else. -/
theorem Advances.heeds {x : Wait} {m : Member} {s : Store} {r : Wait ⊕ Except Failure Unit}
    (h : σ.Advances x m s r) (he : x.errand = .application) :
    σ.member.Heeds x.events m ∧ s = σ.store := by
  cases h with
  | acts hr hdue hin => exact absurd he (CallPoint.errand_ne_application _)
  | resumes hy hr => exact absurd he (CallPoint.errand_ne_application _)
  | held n' => exact ⟨.nothing, rfl⟩
  | @told n point r hr =>
      cases point with
      | applied rest => exact ⟨.events, rfl⟩
      | synced => cases he
      | finished => cases he

/-- A task between two routines begins a round, or it does what concerns no round. -/
theorem Goes.of_wait?_eq_none {w : Work} {w' : Option Work} {m : Member} {s : Store}
    (h : σ.Goes p w m s w') (hw : w.wait? = none) :
    (∃ x, w'.bind Work.wait? = some x ∧ x.errand = .upkeep ∧ m = σ.member ∧ s = σ.store ∧
        σ.Continues (σ.member, σ.member.tick σ.now) (.inl x)) ∨
      (σ.member.Heeds (w.events σ.store) m ∧ s = σ.store ∧
        ∀ x, w'.bind Work.wait? = some x → x.errand = .application) := by
  have happlies {es : List Event} {read : Feed} {injected : List Injection}
      {r : Wait ⊕ Except Failure Unit} (hr : σ.Continues (σ.member.applyEvents es) r) (x : Wait)
      (hx : (Work.watch p (.after read injected r)).wait? = some x) :
      x.errand = .application := by
    rw [wait?_after] at hx
    exact hr.errand (Member.isFor_applyEvents _ es) x hx
  cases h with
  | routine ha => cases hw
  | routineEnds ha => cases hw
  | ticks hc hdue hi =>
      exact .inl ⟨_, rfl, hi.errand (Member.isFor_tick _ _) _ rfl, rfl, rfl, hi⟩
  | ticking ha => cases hw
  | tickEnds ha hl => cases hw
  | rests hc hl hl' =>
      refine .inr ⟨.nothing, rfl, fun x hx => ?_⟩
      cases (wait?_of_isResting hl' p).symm.trans hx
  | applying ha => cases hw
  | @hands feed read injected e r hc hn hr =>
      have hes : (Work.watch p (.streaming feed injected)).events σ.store = [e] := by
        rw [Work.events.eq_def]
        dsimp only [Work.wait?]
        rw [hn]
      rw [hes]
      exact .inr ⟨.events, rfl, happlies hr⟩
  | @handsBatch feed read injected events r hc hn hr =>
      have hes : (Work.watch p (.streaming feed (.batch events :: injected))).events σ.store =
          events := by
        rw [Work.events.eq_def]
        dsimp only [Work.wait?]
        rw [hn]
      rw [hes]
      exact .inr ⟨.events, rfl, happlies hr⟩
  | refused hc => exact .inr ⟨.break, rfl, by rintro x ⟨⟩⟩
  | breaks hc => exact .inr ⟨.break, rfl, by rintro x ⟨⟩⟩
  | follows hf =>
      refine .inr ⟨.nothing, rfl, fun x hx => ?_⟩
      obtain ⟨v, hv, hx⟩ := Option.bind_eq_some_iff.1 hx
      rw [hf v hv] at hx
      cases hx
  | _ => exact .inr ⟨.nothing, rfl, by rintro x ⟨⟩⟩

theorem wait?_steps (σ : Scene) (m : Member) (s : Store) (i : Nat) (w : Option Work) (j : Nat) :
    ((σ.put m s).setWork i w).wait? j = if j = i then w.bind Work.wait? else σ.wait? j := by
  rw [wait?_setWork, wait?_put]

theorem Upheld.round_steps (h : σ.Upheld o) {i : Nat} {w : Work} {w' : Option Work} {m : Member}
    {s : Store} (hw : σ.work i = some w) (hg : σ.Goes p w m s w')
    (hone : ((σ.put m s).setWork i w').OneRound) :
    ∃ o', σ.RoundStep p o (.step i) ((σ.put m s).setWork i w') o' ∧
      ((σ.put m s).setWork i w').InRound o' := by
  have hwait : σ.wait? i = w.wait? := by rw [wait?, hw, Option.bind_some]
  have hnew := σ.wait?_steps m s i w'
  cases hx : w.wait? with
  | none =>
      have hold : ∀ x, σ.wait? i = some x → x.errand ≠ .upkeep := by
        intro x hx'
        cases (hwait.trans hx).symm.trans hx'
      rcases hg.of_wait?_eq_none hx with ⟨y, hy, he, rfl, rfl, hc⟩ | ⟨hm, rfl, happ⟩
      · obtain ⟨rfl, hround⟩ := h.round.begins hone he hold (hy ▸ hnew)
        exact ⟨_, .begins rfl rfl hc, hround⟩
      · rw [← events_step (p := p) hw] at hm
        refine ⟨o, .heeds hm rfl, h.round.of_ne (fun x hx => ?_) hold hnew⟩
        rw [happ x hx]
        rintro ⟨⟩
  | some x =>
      rw [hx] at hwait
      obtain ⟨r, ha, hr⟩ := hg.advances hx
      rw [hr] at hnew
      cases he : x.errand with
      | upkeep =>
          obtain rfl := (h.round i x).1 ⟨hwait, he⟩
          exact ⟨_, .advances ha, h.round.of_eq (fun y hy => (ha.errand y hy).trans he) hnew⟩
      | application =>
          obtain ⟨hm, rfl⟩ := ha.heeds he
          rw [← Work.events_of_wait? hx, ← events_step (p := p) hw] at hm
          refine ⟨o, .heeds hm rfl, h.round.of_ne (fun y hy => ?_) (fun y hy => ?_) hnew⟩
          · rw [ha.errand y hy, he]
            rintro ⟨⟩
          · obtain rfl := Option.some.inj (hwait.symm.trans hy)
            rw [he]
            rintro ⟨⟩
      | withdrawal => exact absurd he (h.errand_ne hwait)

def IsTidy (σ : Scene) : Prop := ∀ id, σ.nextTask ≤ id → σ.work id = none

theorem IsTidy.wait?_eq_none (h : σ.IsTidy) {id : Nat} (hid : σ.nextTask ≤ id) :
    σ.wait? id = none := by
  rw [wait?, h id hid, Option.bind_none]

theorem IsTidy.spawn (h : σ.IsTidy) (w : Work) : (σ.spawn w).IsTidy := by
  intro id hid
  rw [spawn_nextTask] at hid
  rw [spawn_work, if_neg (by omega)]
  exact h id (by omega)

/-- A task is added that is not in a round. -/
theorem InRound.spawn (h : σ.InRound o) (ht : σ.IsTidy) {w : Work}
    (hw : ∀ x, w.wait? = some x → x.errand ≠ .upkeep) : (σ.spawn w).InRound o := by
  refine h.of_ne hw (fun x hx => ?_) (σ.wait?_spawn w)
  cases (ht.wait?_eq_none (Nat.le_refl _)).symm.trans hx

theorem Upheld.round_starts (h : σ.Upheld o) (ht : σ.IsTidy) {r : ServiceMesh.Routine} {w : Wait}
    (hr : r ≠ .withdrawal) (hc : σ.Continues (σ.member.start σ.now r) (.inl w))
    (hone : ((σ.put (σ.member.start σ.now r).1 σ.store).spawn (.routine p w)).OneRound) :
    ∃ o', σ.RoundStep p o (.start p r)
        ((σ.put (σ.member.start σ.now r).1 σ.store).spawn (.routine p w)) o' ∧
      ((σ.put (σ.member.start σ.now r).1 σ.store).spawn (.routine p w)).InRound o' := by
  cases r with
  | upkeep =>
      have he := hc.errand (Member.isFor_tick _ _) _ rfl
      obtain ⟨rfl, hround⟩ := h.round.begins hone he
        (fun x hx => by cases (ht.wait?_eq_none (Nat.le_refl _)).symm.trans hx)
        ((σ.put σ.member σ.store).wait?_spawn (.routine p w))
      exact ⟨_, .begins rfl rfl hc, hround⟩
  | apply es =>
      have he := hc.errand (Member.isFor_applyEvents _ es) _ rfl
      have hput : (σ.put (σ.member.applyEvents es).1 σ.store).InRound o := h.round
      have hm : σ.member.Heeds (σ.events p (.start p (.apply es))) (σ.member.applyEvents es).1 := by
        rw [events_start]
        exact .events
      refine ⟨o, .heeds hm rfl, hput.spawn ht fun x hx => ?_⟩
      obtain rfl := Option.some.inj hx
      rw [he]
      rintro ⟨⟩
  | withdrawal => exact absurd rfl hr

theorem Upheld.round_startsAndEnds (h : σ.Upheld o) {r : ServiceMesh.Routine}
    (hr : r ≠ .withdrawal) :
    ∃ o', σ.RoundStep p o (.start p r) (σ.put (σ.member.start σ.now r).1 σ.store).skip o' ∧
      (σ.put (σ.member.start σ.now r).1 σ.store).skip.InRound o' := by
  refine ⟨o, .heeds ?_ rfl, h.round⟩
  cases r with
  | upkeep => exact .nothing
  | apply es =>
      rw [events_start]
      exact .events
  | withdrawal => exact absurd rfl hr

theorem Upheld.round_drops (h : σ.Upheld o) (id : Nat) :
    ∃ o', σ.RoundStep p o (.drop id) (σ.setWork id none) o' ∧ (σ.setWork id none).InRound o' := by
  have hnew := σ.wait?_setWork id none
  by_cases hid : ∃ x, o = some (id, x)
  · obtain ⟨x, rfl⟩ := hid
    exact ⟨none, .drops rfl rfl, h.round.of_eq (y := none) (by rintro x ⟨⟩) hnew⟩
  · refine ⟨o, .heeds .nothing rfl, h.round.of_ne (by rintro x ⟨⟩) (fun x hx he => ?_) hnew⟩
    exact hid ⟨x, (h.round id x).1 ⟨hx, he⟩⟩

/-- Every step of the scene is a step of the round. -/
theorem Upheld.round_step (h : σ.Upheld o) (ht : σ.IsTidy) (hs : σ.Step p a σ')
    (hone : σ'.OneRound) (ha : a ≠ .start p .withdrawal) :
    ∃ o', σ.RoundStep p o a σ' o' ∧ σ'.InRound o' := by
  cases hs with
  | elsewhere hsp hother =>
      refine ⟨o, .elsewhere hsp hother, h.round.of_wait? ?_⟩
      funext id
      rw [wait?, wait?, hsp.work]
  | waits hw hidle => exact ⟨o, .heeds .nothing rfl, h.round⟩
  | steps hw hg => exact h.round_steps hw hg hone
  | slows k d => exact ⟨o, .heeds .nothing rfl, h.round⟩
  | @starts r w hc => exact h.round_starts ht (fun he => ha (by rw [he])) hc hone
  | @startsAndEnds r res hc => exact h.round_startsAndEnds fun he => ha (by rw [he])
  | registers hc hst =>
      have hput : (σ.put { σ.member with isStarted := true } σ.store).InRound o := h.round
      have htidy : (σ.put { σ.member with isStarted := true } σ.store).IsTidy := ht
      exact ⟨o, .heeds .started rfl,
        (hput.spawn htidy (by rintro x ⟨⟩)).spawn (htidy.spawn _) (by rintro x ⟨⟩)⟩
  | drops id => exact h.round_drops id
  | feedsIn what =>
      refine ⟨o, .heeds .nothing rfl, h.round.of_wait? ?_⟩
      funext id
      exact wait?_feedIn σ what id

/-- A round that has gone on finds the member as it expects it. -/
theorem Advances.fits {x : Wait} {m : Member} {s : Store} {r : Wait ⊕ Except Failure Unit}
    (h : σ.Advances x m s r) (hm : σ.member.IsSound) (he : x.errand = .upkeep)
    (hx : ∀ y ∈ x.roundPoint?, y.Fits σ.member) :
    m.IsSound ∧ ∀ z ∈ r.getLeft?, ∀ y ∈ z.roundPoint?, y.Fits m := by
  cases h with
  | acts hr hdue hin =>
      refine ⟨hm, fun z hz => ?_⟩
      obtain rfl := Option.some.inj hz
      exact hx
  | @resumes f reply r hy hr =>
      have hpoint : (RoundPoint.call f.point).Fits σ.member := hx _ rfl
      refine ⟨hm.of_leads (Member.leads_resume hm.isCancelled hpoint _ _), fun z hz => ?_⟩
      rw [hr.roundPoint? hz]
      exact Member.fits_resume hm.isCancelled hpoint _ _
  | held n' =>
      refine ⟨hm, fun z hz => ?_⟩
      obtain rfl := Option.some.inj hz
      exact hx
  | @told n point r hr =>
      cases point with
      | synced =>
          refine ⟨hm, fun z hz => ?_⟩
          rw [hr.roundPoint? hz]
          exact σ.member.fits_renewStep
      | applied rest => cases he
      | finished => cases he

theorem RoundStep.upheld (h : σ.RoundStep p o a σ' o') (hu : σ.Upheld o) :
    σ'.member.IsSound ∧ ∀ r ∈ o', ∀ y ∈ r.2.roundPoint?, y.Fits σ'.member := by
  cases h with
  | elsewhere hsp hother =>
      have hm : σ'.member = σ.member := congrArg Leased.member hsp.leased
      rw [hm]
      exact ⟨hu.sound, hu.fits⟩
  | heeds hm hs =>
      obtain ⟨-, -, -, hl, -, -⟩ := hm.keeps
      exact ⟨hm.isSound hu.sound, fun r hr y hy => (hu.fits r hr y hy).of_lease hl⟩
  | begins hm hs hc =>
      rw [hm]
      refine ⟨hu.sound, fun r hr y hy => ?_⟩
      obtain rfl := Option.some.inj hr
      rw [hc.roundPoint? rfl] at hy
      exact σ.member.fits_tick σ.now y hy
  | @advances _ id x r ha =>
      obtain ⟨-, he⟩ := (hu.round id x).2 rfl
      obtain ⟨hm, hfits⟩ := ha.fits hu.sound he (hu.fits _ rfl)
      refine ⟨hm, fun q hq => ?_⟩
      obtain ⟨z, hz, rfl⟩ := Option.map_eq_some_iff.1 hq
      exact hfits z hz
  | drops hm hs =>
      rw [hm]
      exact ⟨hu.sound, by rintro r ⟨⟩⟩

/-- Whatever happens to a member that nobody withdraws, it is one step of its round. -/
theorem Upheld.step (h : σ.Upheld o) (ht : σ.IsTidy) (hs : σ.Step p a σ') (hone : σ'.OneRound)
    (ha : a ≠ .start p .withdrawal) : ∃ o', σ.RoundStep p o a σ' o' ∧ σ'.Upheld o' := by
  obtain ⟨o', hr, hround⟩ := h.round_step ht hs hone ha
  obtain ⟨hsound, hfits⟩ := hr.upheld h
  exact ⟨o', hr, h.withdraws.step hs, hsound, hround, hfits⟩

end Scene

def Task.IsInRound (p : String) (t : Task) : Prop :=
  t.work.party = p ∧ ∃ x ∈ t.work.wait?, x.errand = .upkeep

instance (p : String) (t : Task) : Decidable (t.IsInRound p) :=
  inferInstanceAs (Decidable (_ ∧ _))

namespace Cluster

variable {p : String} {c : Cluster} {σ : Scene}

def OneRound (p : String) (c : Cluster) : Prop :=
  ∀ t ∈ c.tasks, ∀ u ∈ c.tasks, t.IsInRound p → u.IsInRound p → t.id = u.id

instance (p : String) (c : Cluster) : Decidable (c.OneRound p) :=
  inferInstanceAs (Decidable (∀ t ∈ c.tasks, ∀ u ∈ c.tasks, _ → _ → _))

theorem OneRound.of_shows (h : c.OneRound p) (hs : c.Shows p σ) : σ.OneRound := by
  intro i j x y hx hy hxe hye
  obtain ⟨t, ht, rfl, htp, htx⟩ := exists_task_of_wait? ((hs.wait? i).trans hx)
  obtain ⟨u, hu, rfl, hup, huy⟩ := exists_task_of_wait? ((hs.wait? j).trans hy)
  exact h t ht u hu ⟨htp, x, htx, hxe⟩ ⟨hup, y, huy, hye⟩

theorem Shows.isTidy (h : c.Shows p σ) (ht : c.Tidy) : σ.IsTidy := by
  intro id hid
  rw [← h.work, work?, ht.task?_eq_none (h.nextTask ▸ hid), Option.bind_none]

/-- A newcomer is upheld, and no round is under way. -/
theorem New.upheld (h : c.New p) (hs : c.Shows p σ) : σ.Upheld none := by
  have hnone (id : Nat) : σ.wait? id = none := (hs.wait? id).symm.trans (h.wait?_eq_none id)
  have hm := h.member _ hs.member?
  refine ⟨fun id x hx => ?_, ?_, fun id x => ?_, by rintro r ⟨⟩⟩
  · cases (hnone id).symm.trans hx
  · rw [hm]
    exact ⟨rfl, LeaseSettings.limit_pos _, fun _ => rfl⟩
  · rw [hnone]
    simp

end Cluster

end ServiceMesh
