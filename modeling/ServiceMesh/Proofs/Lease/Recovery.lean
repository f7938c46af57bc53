import ServiceMesh.Proofs.Lease.Published
import ServiceMesh.Proofs.Topology.Listing

/-!
The way back to a healthy member. While the store answers, in time, and no lease ends, every round
of upkeep brings a member nearer to health, whatever it has been through before; and nothing that
others do takes it further away.
-/

namespace ServiceMesh

def Flight.TimesOut (f : Flight) (now : Nat) : Prop :=
  f.deadline ≤ now ∧ f.deadline < if f.reply.isNone then f.actsAt else f.answersAt

instance (f : Flight) (now : Nat) : Decidable (f.TimesOut now) :=
  inferInstanceAs (Decidable (_ ∧ _))

/-- Whoever does not give up gets the answer of the store. -/
theorem Flight.Yields.reply_of_inTime {f : Flight} {now : Nat} {r : Except Failure f.point.Reply}
    (h : f.Yields now r) (ht : ¬f.TimesOut now) : f.reply = some r := by
  cases h with
  | answer hr hdue hin => exact hr
  | unsent hr hlate hdue => exact absurd ⟨hdue, by rw [hr]; exact hlate⟩ ht
  | unheard hr hlate hdue => exact absurd ⟨hdue, by rw [hr]; exact hlate⟩ ht

/-- What a round may count on at a call, before and after the store has answered. -/
def CallPoint.Expects (m : Member) (s : Store) :
    (p : CallPoint) → Option (Except Failure p.Reply) → Prop
  | grant, r => ∀ x ∈ r, ∃ l, x = .ok l ∧ s.HasLease l
  | publish l, r => s.HasLease l ∧ ∀ x ∈ r, x.isOk = true
  | scan, r => ∀ x ∈ r, x.isOk = true
  | renew l, r => m.snapshot.isSome = true ∧ ∀ x ∈ r, (x.isOk = true ↔ s.HasLease l)
  | _, _ => True

def Next.Expects (m : Member) (s : Store) : Next → Prop
  | call p => p.Expects m s none
  | notify .synced => m.snapshot.isSome = true
  | _ => True

def Wait.Expects (m : Member) (s : Store) : Wait → Prop
  | call f => f.point.Expects m s f.reply
  | notice _ p => (Next.notify p).Expects m s

theorem Leased.Issues.expects {k : Leased} {now : Nat} {n : Next} {r : Wait ⊕ Except Failure Unit}
    (h : k.Issues now n r) {m : Member} {s : Store} (hn : n.Expects m s) {y : Wait}
    (hy : r.getLeft? = some y) : y.Expects m s := by
  cases h with
  | done r => cases hy
  | notify n p =>
      obtain rfl := Option.some.inj hy
      exact hn
  | call p =>
      obtain rfl := Option.some.inj hy
      exact hn

/-- Others may use the store meanwhile, if they do not make a lease that has ended look alive. -/
theorem Wait.Expects.of_serves {m : Member} {s s' : Store} {x : Wait} (h : x.Expects m s)
    (hs : s.Serves s') (hfits : ∀ y ∈ x.roundPoint?, y.Fits m)
    (halive : ∀ l, m.lease = some l → (s'.HasLease l ↔ s.HasLease l)) : x.Expects m s' := by
  cases x with
  | notice n p => cases p <;> exact h
  | call f =>
      obtain ⟨point, actsAt, answersAt, deadline, reply⟩ := f
      cases point with
      | grant =>
          intro r hr
          obtain ⟨l, hl, hthere⟩ := h r hr
          exact ⟨l, hl, hs.hasLease hthere⟩
      | publish l => exact ⟨hs.hasLease h.1, h.2⟩
      | scan => exact h
      | renew l => exact ⟨h.1, fun r hr => (h.2 r hr).trans (halive l (hfits _ rfl)).symm⟩
      | withdraw => trivial
      | retire => trivial

theorem Wait.Expects.of_snapshot {m m' : Member} {s : Store} {x : Wait} (h : x.Expects m s)
    (hs : m'.snapshot.isSome = m.snapshot.isSome) : x.Expects m' s := by
  cases x with
  | notice n p =>
      cases p with
      | synced => exact hs.trans h
      | _ => trivial
  | call f =>
      obtain ⟨point, actsAt, answersAt, deadline, reply⟩ := f
      cases point with
      | renew l => exact ⟨hs.trans h.1, h.2⟩
      | _ => exact h

namespace Store

variable {s : Store}

theorem exists_grant (h : s.isAvailable = true) : ∃ s' l, s.grant = .ok (s', l) := by
  rw [grant, if_neg (by simp [h])]
  exact ⟨_, _, rfl⟩

theorem exists_put (h : s.isAvailable = true) {l : LeaseId} (hl : s.HasLease l) (k : String)
    (v : List UInt8) : ∃ s', s.put k v (some l) = .ok s' := by
  rw [put, if_neg (by simp [h])]
  dsimp only
  rw [if_pos (show (s.lease? l).isSome = true from hl)]
  exact ⟨_, rfl⟩

theorem isOk_scan (h : s.isAvailable = true) (start : String) : (s.scan start).isOk = true := by
  rw [scan, if_neg (by simp [h])]
  rfl

theorem isOk_keepAlive_iff (h : s.isAvailable = true) (hk : s.rejectsKeepAlive = false)
    (l : LeaseId) : (s.keepAlive l).isOk = true ↔ s.HasLease l := by
  rw [keepAlive, if_neg (by simp [h]), if_neg (by simp [hk]), HasLease]
  split
  · next hl => simp [hl, Except.isOk, Except.toBool]
  · next hl => simp [hl, Except.isOk, Except.toBool]

end Store

/-- A store that is well answers as expected. -/
theorem CallPoint.expects_perform {m : Member} {s : Store} {p : CallPoint}
    (ha : s.isAvailable = true) (hk : s.rejectsKeepAlive = false) (h : p.Expects m s none) :
    p.Expects m (p.perform m s).1 (some (p.perform m s).2) := by
  cases p with
  | grant =>
      obtain ⟨s', l, hg⟩ := Store.exists_grant ha
      rw [perform, hg]
      intro x hx
      obtain rfl := Option.some.inj hx
      exact ⟨l, rfl, (Store.hasLease_of_grant hg l).2 (.inr rfl)⟩
  | publish l =>
      obtain ⟨hl, -⟩ := h
      obtain ⟨s', hp⟩ := Store.exists_put ha hl m.node.path m.node.encode
      rw [perform, hp]
      refine ⟨(Store.hasLease_of_put hp l).2 hl, ?_⟩
      intro x hx
      obtain rfl := Option.some.inj hx
      rfl
  | scan =>
      intro x hx
      obtain rfl := Option.some.inj hx
      exact Store.isOk_scan ha _
  | renew l =>
      refine ⟨h.1, ?_⟩
      intro x hx
      obtain rfl := Option.some.inj hx
      exact Store.isOk_keepAlive_iff ha hk l
  | withdraw => trivial
  | retire => trivial

namespace Member

variable {m : Member} {s : Store}

theorem expects_renewStep (h : m.snapshot.isSome = true) (s : Store) : m.renewStep.Expects m s := by
  rw [renewStep]
  split
  · exact ⟨h, by rintro x ⟨⟩⟩
  · trivial

/-- A round that does not read the topology has a snapshot. -/
theorem expects_syncStep (m : Member) (now : Nat) (s : Store) : (m.syncStep now).Expects m s := by
  rw [syncStep]
  split
  · rintro x ⟨⟩
  · next hn =>
      refine expects_renewStep ?_ s
      rw [needsResync, Bool.or_eq_true, not_or] at hn
      simpa [Option.isSome_iff_ne_none] using hn.1

theorem expects_tick (m : Member) (now : Nat) (s : Store) : (m.tick now).Expects m s := by
  rw [tick]
  split
  · trivial
  · split
    · rintro x ⟨⟩
    · exact m.expects_syncStep now s

/-- How many rounds it takes to get well, at most. -/
def distance (m : Member) (s : Store) : Nat :=
  match m.lease with
  | none => 1
  | some l =>
    if ¬s.HasLease l then m.settings.limit - m.failures.toNat + 1
    else if m.failures = 0 ∧ m.snapshot.isSome = true then 0
    else 1

theorem distance_le (m : Member) (s : Store) : m.distance s ≤ m.settings.limit + 1 := by
  have hpos := m.settings.limit_pos
  rw [distance]
  repeat' split
  all_goals omega

theorem eq_of_distance_eq_zero (h : m.distance s = 0) :
    ∃ l, m.lease = some l ∧ s.HasLease l ∧ m.failures = 0 ∧ m.snapshot.isSome = true := by
  rw [distance] at h
  split at h
  · cases h
  · next l hl =>
      split at h
      · omega
      · next hdead =>
          split at h
          · next hwell => exact ⟨l, hl, not_not.1 hdead, hwell⟩
          · cases h

/-- A member without a lease that has ended is one round away from health at most. -/
theorem distance_le_one_iff (hm : m.IsSound) :
    m.distance s ≤ 1 ↔ ∀ l, m.lease = some l → s.HasLease l := by
  have hlt := hm.failures
  rw [distance]
  split
  · next hn => simp [hn]
  · next l hl =>
      split
      · next hdead =>
          refine ⟨fun h => by omega, fun h => absurd (h l hl) hdead⟩
      · next halive =>
          have hl' : ∀ l', m.lease = some l' → s.HasLease l' := by
            intro l' he
            obtain rfl := Option.some.inj (hl.symm.trans he)
            exact not_not.1 halive
          refine ⟨fun _ => hl', fun _ => ?_⟩
          split <;> omega

/-- Nothing but what the distance is made of changes it. -/
theorem distance_congr {m' : Member} {s' : Store} (hset : m'.settings = m.settings)
    (hl : m'.lease = m.lease) (hf : m'.failures = m.failures)
    (hs : m'.snapshot.isSome = m.snapshot.isSome)
    (halive : ∀ l, m.lease = some l → (s'.HasLease l ↔ s.HasLease l)) :
    m'.distance s' = m.distance s := by
  rw [distance, hl, distance]
  split
  · rfl
  · next l he => simp only [hset, hf, hs, halive l he]

/-- The answer to the renewal decides: a round that ends has brought the member nearer. -/
theorem distance_renewed (hm : m.IsSound) {l : LeaseId} (hl : m.lease = some l)
    (hs : m.snapshot.isSome = true) {r : Except Failure (CallPoint.renew l).Reply}
    (hr : r.isOk = true ↔ s.HasLease l) (now : Nat) :
    (m.resume now (.renew l) r).1.distance s ≤ m.distance s - 1 := by
  have hc : ¬m.isCancelled = true := by simp [hm.isCancelled]
  cases r with
  | ok u =>
      rw [resume, if_neg hc]
      have halive : s.HasLease l := hr.1 rfl
      have hzero : ({ m with failures := 0 } : Member).distance s = 0 := by
        simp only [distance, hl]
        rw [if_neg (not_not.2 halive), if_pos ⟨trivial, hs⟩]
      exact hzero ▸ Nat.zero_le _
  | error f =>
      have hdead : ¬s.HasLease l := fun h => Bool.false_ne_true (hr.2 h)
      have hfar : m.distance s = m.settings.limit - m.failures.toNat + 1 := by
        simp only [distance, hl]
        rw [if_pos hdead]
      obtain ⟨hnext, he⟩ := renewalFailed_eq hm.failures
      rw [resume, if_neg hc, hfar]
      dsimp only
      rw [he]
      split
      · next hlast =>
          change 1 ≤ _
          omega
      · next hmore =>
          have hlt := hm.failures
          simp only [distance, hl]
          rw [if_pos hdead, hnext]
          omega

end Member

def Next.rounds : Next → Nat
  | done _ => 1
  | _ => 0

namespace Member

variable {m : Member} {s : Store}

theorem rounds_syncStep (h : m.lease ≠ none) (now : Nat) : (m.syncStep now).rounds = 0 := by
  rw [syncStep]
  split
  · rfl
  · rw [renewStep]
    split
    · rfl
    · next hn => exact absurd hn h

/-- A round goes on from an expected answer to where its expectations are met again, and it has not
taken the member further away. -/
theorem expects_resume (hm : m.IsSound) {p : CallPoint} (hp : (RoundPoint.call p).Fits m)
    (now : Nat) {r : Except Failure p.Reply} (h : p.Expects m s (some r)) :
    (m.resume now p r).2.Expects (m.resume now p r).1 s ∧
      (m.resume now p r).1.distance s ≤ m.distance s - (m.resume now p r).2.rounds := by
  have hc : ¬m.isCancelled = true := by simp [hm.isCancelled]
  cases p with
  | grant =>
      obtain ⟨l, rfl, hl⟩ := h r rfl
      rw [resume, if_neg hc]
      exact ⟨⟨hl, by rintro x ⟨⟩⟩, Nat.le_refl _⟩
  | publish l =>
      obtain ⟨hl, hr⟩ := h
      cases r with
      | error f => cases hr _ rfl
      | ok u =>
          have hnone : m.lease = none := hp
          have hone : m.distance s = 1 := by rw [distance, hnone]
          have hm' := hm.of_leads (.registered l)
          rw [resume, if_neg hc]
          refine ⟨expects_syncStep _ now s, ?_⟩
          rw [rounds_syncStep (Option.some_ne_none l), hone, Nat.sub_zero]
          refine (distance_le_one_iff hm').2 fun l' he => ?_
          obtain rfl := Option.some.inj he
          exact hl
  | scan =>
      have hr := h r rfl
      cases r with
      | error f => cases hr
      | ok records =>
          rw [resume, if_neg hc]
          refine ⟨rfl, ?_⟩
          change _ ≤ m.distance s - 0
          simp only [distance]
          split
          · exact Nat.le_refl _
          · split
            · exact Nat.le_refl _
            · split
              · exact Nat.zero_le _
              · next hn => exact Nat.le_of_eq (if_neg fun h => hn ⟨h.1, rfl⟩).symm
  | renew l =>
      have hl : m.lease = some l := hp
      have hrounds : (m.resume now (.renew l) r).2.rounds = 1 := by
        cases r <;> (rw [resume, if_neg hc]; rfl)
      refine ⟨?_, hrounds ▸ distance_renewed hm hl h.1 (h.2 r rfl) now⟩
      cases r <;> (rw [resume, if_neg hc]; trivial)
  | withdraw => exact hp.elim
  | retire => exact hp.elim

end Member

namespace Scene

variable {p : String} {σ σ' : Scene} {a : Cluster.Act} {o o' : Option (Nat × Wait)}

structure Calm (σ : Scene) (o : Option (Nat × Wait)) (a : Cluster.Act) : Prop where
  isAvailable : σ.store.isAvailable = true
  renews : σ.store.rejectsKeepAlive = false
  inTime : ∀ id f, a = .step id → o = some (id, .call f) → ¬f.TimesOut σ.now

/-- The member is upheld and published, and its round may count on the store. -/
structure Recovers (σ : Scene) (o : Option (Nat × Wait)) : Prop where
  upheld : σ.Upheld o
  published : σ.Published o
  expects : ∀ r ∈ o, r.2.Expects σ.member σ.store

theorem Continues.rounds {s : Member × Next} {r : Wait ⊕ Except Failure Unit}
    (h : σ.Continues s r) : s.2.rounds = if r.isRight = true then 1 else 0 := by
  obtain ⟨m, n⟩ := s
  cases h <;> rfl

theorem Recovers.fits {id : Nat} {f : Flight} (h : σ.Recovers (some (id, .call f))) :
    (RoundPoint.call f.point).Fits σ.member :=
  h.upheld.fits _ rfl _ rfl

/-- While all is calm, a round gets the answer that it may count on. -/
theorem Recovers.expects_reply {id : Nat} {f : Flight} (h : σ.Recovers (some (id, .call f)))
    (hcalm : σ.Calm (some (id, .call f)) (.step id)) {r : Except Failure f.point.Reply}
    (hy : f.Yields σ.now r) : f.point.Expects σ.member σ.store (some r) := by
  rw [← hy.reply_of_inTime (hcalm.inTime id f rfl rfl)]
  exact h.expects _ rfl

/-- What a round does that goes on while all is calm. -/
theorem Advances.recovers {id : Nat} {x : Wait} {m : Member} {s : Store}
    {r : Wait ⊕ Except Failure Unit} (h : σ.Advances x m s r) (hσ : σ.Recovers (some (id, x)))
    (hcalm : σ.Calm (some (id, x)) (.step id)) :
    (∀ y ∈ r.getLeft?, y.Expects m s) ∧
      m.distance s ≤ σ.member.distance σ.store - if r.isRight = true then 1 else 0 := by
  have hexpects := hσ.expects _ rfl
  cases h with
  | @acts f hr hdue hin =>
      refine ⟨fun y hy => ?_, Nat.le_of_eq (Member.distance_congr rfl rfl rfl rfl fun l hl => ?_)⟩
      · obtain rfl := Option.some.inj hy
        refine CallPoint.expects_perform hcalm.isAvailable hcalm.renews ?_
        rw [← hr]
        exact hexpects
      · rw [CallPoint.perform_of_lease hσ.fits (by rw [hl]; exact Option.some_ne_none l)]
  | @resumes f reply r hy hr =>
      obtain ⟨hnext, hnear⟩ :=
        Member.expects_resume hσ.upheld.sound hσ.fits σ.now (hσ.expects_reply hcalm hy)
      exact ⟨fun y hy => hr.expects hnext hy, hr.rounds ▸ hnear⟩
  | held n' =>
      refine ⟨fun y hy => ?_, Nat.le_refl _⟩
      obtain rfl := Option.some.inj hy
      exact hexpects
  | @told n point r hr =>
      obtain ⟨-, he⟩ := (hσ.upheld.round id _).2 rfl
      cases point with
      | synced =>
          have hl : σ.member.lease ≠ none := hσ.upheld.fits _ rfl _ rfl
          have hcall : σ.member.renewStep.rounds = 0 := by
            rw [Member.renewStep]
            split
            · rfl
            · next hn => exact absurd hn hl
          refine ⟨fun y hy => hr.expects (Member.expects_renewStep hexpects σ.store) hy, ?_⟩
          rw [← hr.rounds]
          exact Nat.le_of_eq (by rw [Member.notified, hcall, Nat.sub_zero])
      | applied rest => cases he
      | finished => cases he

/-- Every step of a member keeps it on its way: a round that ends has brought it nearer, and nothing
takes it further away. -/
theorem Recovers.step (h : σ.Recovers o) (hs : σ.RoundStep p o a σ' o') (hcalm : σ.Calm o a)
    (hserves : σ.store.Serves σ'.store)
    (hfresh : ∀ l, σ.IsAt o l → l = σ.store.nextLease → σ'.store.nextLease = σ.store.nextLease) :
    (∀ r ∈ o', r.2.Expects σ'.member σ'.store) ∧
      σ'.member.distance σ'.store ≤ σ.member.distance σ.store ∧
      (∀ id x, a = .step id → o = some (id, x) → o' = none →
        σ'.member.distance σ'.store ≤ σ.member.distance σ.store - 1) := by
  have halive (l : LeaseId) (hl : σ.member.lease = some l) :
      σ'.store.HasLease l ↔ σ.store.HasLease l :=
    ⟨hserves.hasLease_before (hfresh l (.inl hl)), hserves.hasLease⟩
  cases hs with
  | elsewhere hsp hother =>
      have hm : σ'.member = σ.member := congrArg Leased.member hsp.leased
      rw [hm]
      refine ⟨fun r hr => (h.expects r hr).of_serves hserves (h.upheld.fits r hr) halive,
        Nat.le_of_eq (Member.distance_congr rfl rfl rfl rfl halive), ?_⟩
      rintro id x - rfl ⟨⟩
  | heeds hm hs =>
      obtain ⟨-, hset, -, hl, hf, hsnap⟩ := hm.keeps
      rw [hs]
      refine ⟨fun r hr => (h.expects r hr).of_snapshot hsnap,
        Nat.le_of_eq (Member.distance_congr hset hl hf hsnap fun l _ => Iff.rfl), ?_⟩
      rintro id x - rfl ⟨⟩
  | begins hm hs hc =>
      rw [hm, hs]
      refine ⟨fun r hr => ?_, Nat.le_refl _, by rintro id x - ⟨⟩⟩
      obtain rfl := Option.some.inj hr
      exact hc.expects (Member.expects_tick _ _ _) rfl
  | @advances _ id x r ha =>
      obtain ⟨hexpects, hnear⟩ := ha.recovers h hcalm
      refine ⟨fun q hq => ?_, Nat.le_trans hnear (Nat.sub_le _ _), fun i y _ _ hnone => ?_⟩
      · obtain ⟨z, hz, rfl⟩ := Option.map_eq_some_iff.1 hq
        exact hexpects z hz
      · cases r with
        | inl y => cases hnone
        | inr res => exact hnear
  | drops hm hs =>
      rw [hm, hs]
      exact ⟨by rintro r ⟨⟩, Nat.le_refl _, by rintro i y ⟨⟩⟩

/-- A step that ends the round of a task. -/
theorem RoundStep.of_ends (h : σ.RoundStep p o a σ' o') (hround : σ.InRound o)
    (hround' : σ'.InRound o') {id : Nat} {x : Wait} (ha : a = .step id)
    (hx : σ.wait? id = some x) (he : x.errand = .upkeep) (hend : σ'.wait? id = none) :
    o = some (id, x) ∧ o' = none := by
  obtain rfl := (hround id x).1 ⟨hx, he⟩
  refine ⟨rfl, ?_⟩
  have hgone (y : Wait) (ho : o' = some (id, y)) : False := by
    cases ((hround' id y).2 ho).1.symm.trans hend
  cases h with
  | elsewhere hsp hother => exact (hgone x rfl).elim
  | heeds hm hs => exact (hgone x rfl).elim
  | @advances _ _ _ r hr =>
      cases r with
      | inl y => exact (hgone y rfl).elim
      | inr res => rfl
  | drops hm hs => rfl

end Scene

namespace Cluster

variable {p : String} {c : Cluster} {a : Act} {acts before after : List Act} {σ : Scene}
  {o : Option (Nat × Wait)}

/-- Nothing stands in the way of the member of a party any more: nobody withdraws it, its rounds do
not overlap and nobody else writes its record; the store answers and renews leases, in time, and no
lease ends. -/
structure Calm (p : String) (c : Cluster) (a : Act) : Prop where
  alone : Alone p c a
  isAvailable : (c.storeOf p).isAvailable = true
  renews : (c.storeOf p).rejectsKeepAlive = false
  inTime : ∀ id ∈ a.step?, ∀ f ∈ c.flight? p id, ¬f.TimesOut c.now
  lasting : a.expires = false

def IsResting (p : String) (c : Cluster) : Prop := ∀ t ∈ c.tasks, ¬t.IsInRound p

def Completes (p : String) (c : Cluster) (a : Act) : Prop :=
  ∃ id ∈ a.step?, (∃ x ∈ c.wait? p id, x.errand = .upkeep) ∧ (c.act a).wait? p id = none

/-- The member of the party is well: it holds a lease that is there, its record goes with this
lease, no renewal has failed since the last one that succeeded, and it has a snapshot. -/
def IsHealthy (p : String) (c : Cluster) : Prop :=
  ∃ m ∈ c.member? p, ∃ l ∈ m.lease, (c.storeOf p).HasLease l ∧
    (c.storeOf p).records.get? m.node.path = some ⟨m.node.encode, some l⟩ ∧
      m.failures = 0 ∧ m.snapshot.isSome = true

instance (p : String) (c : Cluster) (a : Act) : Decidable (Calm p c a) :=
  decidable_of_iff
    (Alone p c a ∧ (c.storeOf p).isAvailable = true ∧ (c.storeOf p).rejectsKeepAlive = false ∧
      (∀ id ∈ a.step?, ∀ f ∈ c.flight? p id, ¬f.TimesOut c.now) ∧ a.expires = false)
    ⟨fun h => ⟨h.1, h.2.1, h.2.2.1, h.2.2.2.1, h.2.2.2.2⟩, fun h => ⟨h.1, h.2, h.3, h.4, h.5⟩⟩

instance (p : String) (c : Cluster) : Decidable (IsResting p c) :=
  inferInstanceAs (Decidable (∀ t ∈ c.tasks, ¬t.IsInRound p))

instance (p : String) (c : Cluster) (a : Act) : Decidable (Completes p c a) :=
  decidable_of_iff
    (∃ id ∈ a.step?, (∃ x ∈ c.wait? p id, x.errand = .upkeep) ∧
      ((c.act a).wait? p id).isNone = true)
    (by simp only [Completes, Option.isNone_iff_eq_none])

instance (p : String) (c : Cluster) : Decidable (IsHealthy p c) :=
  inferInstanceAs (Decidable (∃ m ∈ c.member? p, ∃ l ∈ m.lease, _))

def roundsDone (p : String) : Cluster → List Act → Nat
  | _, [] => 0
  | c, a :: acts => (if c.Completes p a then 1 else 0) + roundsDone p (c.act a) acts

theorem Shows.calm (h : c.Shows p σ) (ho : σ.InRound o) (ha : Calm p c a) : σ.Calm o a := by
  refine ⟨h.storeOf ▸ ha.isAvailable, h.storeOf ▸ ha.renews, fun id f he hf => ?_⟩
  rw [← h.now]
  subst hf
  exact ha.inTime id (Act.eq_step_iff.1 he) f
    (mem_flight?_iff.2 ((h.wait? id).trans ((ho id _).2 rfl).1))

/-- One act of a calm run. -/
theorem Shows.recovers_act (h : c.Shows p σ) (ht : c.Tidy) (hσ : σ.Recovers o)
    (ha : Calm p c a) :
    ∃ σ' o', (c.act a).Shows p σ' ∧ σ'.member.node = σ.member.node ∧
      σ.RoundStep p o a σ' o' ∧ σ'.Recovers o' ∧
      σ'.member.distance σ'.store ≤
        σ.member.distance σ.store - if c.Completes p a then 1 else 0 := by
  obtain ⟨σ', o', h', hs, hr, hu', hp'⟩ :=
    h.published_act ht hσ.upheld hσ.published ha.alone
  have hround := hσ.upheld.round
  obtain ⟨hexpects, hkeeps, hnear⟩ := hσ.step hr (h.calm hround ha)
    (h.serves_act h' hs.leased_store ha.lasting) fun l hl he => by
      have hfresh := ha.alone.fresh
      rw [h.storeOf, h'.storeOf, ← he] at hfresh
      exact he ▸ hfresh (h.isAt hround hl)
  refine ⟨σ', o', h', hs.node, hr, ⟨hu', hp', hexpects⟩, ?_⟩
  split
  · next hc =>
      obtain ⟨id, hid, ⟨x, hx, he⟩, hend⟩ := hc
      have hstep := Act.eq_step_iff.2 hid
      obtain ⟨ho, ho'⟩ := hr.of_ends hround hu'.round hstep ((h.wait? id).symm.trans hx) he
        ((h'.wait? id).symm.trans hend)
      exact hnear id x hstep ho ho'
  · exact hkeeps

/-- A calm run brings the member nearer to health with every round. -/
theorem Shows.recovers_play (h : c.Shows p σ) (ht : c.Tidy) (hσ : σ.Recovers o)
    (ha : Along (Calm p) c acts) :
    (c.play acts).Tidy ∧ ∃ σ' o', (c.play acts).Shows p σ' ∧ σ'.member.node = σ.member.node ∧
      σ'.Recovers o' ∧
      σ'.member.distance σ'.store ≤ σ.member.distance σ.store - roundsDone p c acts := by
  induction acts generalizing c σ o with
  | nil => exact ⟨ht, σ, o, h, rfl, hσ, Nat.le_refl _⟩
  | cons a acts ih =>
      obtain ⟨σ₁, o₁, h₁, hnode₁, -, hσ₁, hnear₁⟩ := h.recovers_act ht hσ ha.1
      obtain ⟨ht', σ', o', h', hnode, hσ', hnear⟩ := ih h₁ (ht.act a) hσ₁ ha.2
      refine ⟨ht', σ', o', h', hnode.trans hnode₁, hσ', ?_⟩
      rw [roundsDone]
      omega

/-- Between two rounds there is nothing to expect. -/
theorem IsResting.recovers (hr : c.IsResting p) (h : c.Shows p σ) (hu : σ.Upheld o)
    (hp : σ.Published o) : o = none ∧ σ.Recovers none := by
  have hnone : o = none := by
    cases o with
    | none => rfl
    | some r =>
        obtain ⟨hx, he⟩ := (hu.round r.1 r.2).2 rfl
        obtain ⟨t, ht, -, hparty, hwait⟩ := exists_task_of_wait? ((h.wait? _).trans hx)
        exact absurd ⟨hparty, _, hwait, he⟩ (hr t ht)
  subst hnone
  exact ⟨rfl, hu, hp, by rintro r ⟨⟩⟩

theorem Shows.isHealthy (h : c.Shows p σ) (hσ : σ.Recovers o)
    (hd : σ.member.distance σ.store = 0) : c.IsHealthy p := by
  obtain ⟨l, hl, halive, hf, hs⟩ := Member.eq_of_distance_eq_zero hd
  refine ⟨σ.member, h.member?, l, hl, ?_⟩
  rw [h.storeOf]
  exact ⟨halive, (hσ.published.holds l (.inl hl) halive).1, hf, hs⟩

end Cluster

end ServiceMesh
