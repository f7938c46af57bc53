import ServiceMesh.Proofs.Lease.Routine

/-!
The upkeep of a member, over a store of which nothing is known. Rounds do not overlap; every call of
a round ends with any answer or failure whatever; and between two steps of a round, as between two
rounds, events may be applied, the watch may break and the member may be told to keep itself
registered. The failed renewals are counted from outside here, and the member is shown to count them
right.
-/

namespace ServiceMesh

inductive RoundPoint where
  | call (p : CallPoint)
  /-- For the watchers to be told that the snapshot was read. -/
  | synced
  deriving DecidableEq

def Next.roundPoint? : Next → Option RoundPoint
  | .call p => some (.call p)
  | .notify .synced => some .synced
  | _ => none

/-- How many renewals in a row fail until the lease is given up. Even a limit of none takes one. -/
def LeaseSettings.limit (s : LeaseSettings) : Nat := max 1 s.maxKeepAliveRetry.toNat

theorem LeaseSettings.limit_pos (s : LeaseSettings) : 0 < s.limit := Nat.le_max_left _ _

theorem LeaseSettings.limit_lt (s : LeaseSettings) : s.limit < 256 :=
  Nat.max_lt.2 ⟨by decide, s.maxKeepAliveRetry.toNat_lt⟩

namespace Member

structure IsSound (m : Member) : Prop where
  isCancelled : m.isCancelled = false
  failures : m.failures.toNat < m.settings.limit
  snapshot : m.lease = none → m.snapshot = none

end Member

/-- What a member holds while a round of it waits at a point. -/
def RoundPoint.Fits (m : Member) : RoundPoint → Prop
  | call .grant => m.lease = none
  | call (.publish _) => m.lease = none
  | call .scan => m.lease ≠ none
  | call (.renew l) => m.lease = some l
  | synced => m.lease ≠ none
  | _ => False

def Next.Fits (m : Member) (n : Next) : Prop := ∀ x ∈ n.roundPoint?, x.Fits m

theorem RoundPoint.Fits.of_lease {m m' : Member} {x : RoundPoint} (h : x.Fits m)
    (hl : m'.lease = m.lease) : x.Fits m' := by
  cases x with
  | synced => exact fun hn => h (hl.symm.trans hn)
  | call p =>
      cases p with
      | grant => exact hl.trans h
      | publish l => exact hl.trans h
      | scan => exact fun hn => h (hl.symm.trans hn)
      | renew l => exact hl.trans h
      | withdraw => exact h
      | retire => exact h

namespace Member

variable {m : Member}

theorem fits_done (m : Member) (r : Except Failure Unit) : (Next.done r).Fits m := by rintro x ⟨⟩

theorem fits_renewStep (m : Member) : m.renewStep.Fits m := by
  rw [renewStep]
  split
  · next l hl =>
      intro x hx
      obtain rfl := Option.some.inj hx
      exact hl
  · exact m.fits_done _

theorem fits_syncStep (h : m.lease ≠ none) (now : Nat) : (m.syncStep now).Fits m := by
  rw [syncStep]
  split
  · intro x hx
    obtain rfl := Option.some.inj hx
    exact h
  · exact m.fits_renewStep

theorem fits_tick (m : Member) (now : Nat) : (m.tick now).Fits m := by
  rw [tick]
  split
  · exact m.fits_done _
  · split
    · next hl =>
        intro x hx
        obtain rfl := Option.some.inj hx
        exact Option.isNone_iff_eq_none.1 hl
    · next hl => exact fits_syncStep (fun hn => hl (by rw [hn]; rfl)) now

/-- Events change the snapshot, but they neither make nor take one. -/
theorem isSome_snapshot_applyEvents (m : Member) (es : List Event) :
    (m.applyEvents es).1.snapshot.isSome = m.snapshot.isSome := by
  induction es generalizing m with
  | nil => rfl
  | cons e es ih =>
      rw [applyEvents]
      split
      · exact ih m
      · next t ht =>
          rw [ht]
          dsimp only
          split
          · rfl
          · exact ih _

/-- A renewal that fails is counted. The one at the limit takes the lease and the snapshot with
it, and the count begins anew. -/
theorem renewalFailed_eq (h : m.failures.toNat < m.settings.limit) :
    (m.failures + 1).toNat = m.failures.toNat + 1 ∧
      m.renewalFailed =
        if m.failures.toNat + 1 = m.settings.limit then
          { m with lease := none, failures := 0, snapshot := none }
        else { m with failures := m.failures + 1 } := by
  have hlt := m.settings.limit_lt
  have hnext : (m.failures + 1).toNat = m.failures.toNat + 1 := by
    rw [UInt8.toNat_add, UInt8.toNat_one]
    omega
  refine ⟨hnext, ?_⟩
  rw [LeaseSettings.limit] at h ⊢
  rw [renewalFailed]
  simp only [UInt8.le_iff_toNat_le, hnext]
  congr 1
  exact propext (by omega)

end Member

inductive Outcome where
  | registered
  | renewed
  | renewalFailed
  | irrelevant
  deriving DecidableEq

def Outcome.count (n : Nat) : Outcome → Nat
  | registered => 0
  | renewed => 0
  | renewalFailed => n + 1
  | irrelevant => n

def CallPoint.outcome : (p : CallPoint) → Except Failure p.Reply → Outcome
  | publish _, .ok _ => .registered
  | renew _, .ok _ => .renewed
  | renew _, .error _ => .renewalFailed
  | _, _ => .irrelevant

/-- What becomes of a member by an outcome, as far as the count is concerned. -/
inductive Outcome.Leads (m : Member) : Outcome → Member → Prop where
  | registered (l : LeaseId) : Leads m .registered { m with lease := some l, failures := 0 }
  | renewed : Leads m .renewed { m with failures := 0 }
  | renewalFailed (hl : m.lease ≠ none) : Leads m .renewalFailed m.renewalFailed
  | irrelevant {m' : Member} (hset : m'.settings = m.settings)
      (hc : m'.isCancelled = m.isCancelled) (hl : m'.lease = m.lease)
      (hf : m'.failures = m.failures)
      (hs : m'.snapshot.isSome = m.snapshot.isSome ∨
        m.lease ≠ none ∧ m'.snapshot.isSome = true) : Leads m .irrelevant m'

theorem Outcome.Leads.settings {m m' : Member} {o : Outcome} (h : o.Leads m m') :
    m'.settings = m.settings := by
  cases h with
  | registered l => rfl
  | renewed => rfl
  | renewalFailed hl => exact m.alike_renewalFailed.settings
  | irrelevant hset hc hl hf hs => exact hset

theorem Outcome.leads_self (m : Member) : Outcome.irrelevant.Leads m m :=
  .irrelevant rfl rfl rfl rfl (.inl rfl)

namespace Member

variable {m m' : Member} {p : CallPoint}

theorem leads_applyEvents (m : Member) (es : List Event) :
    Outcome.irrelevant.Leads m (m.applyEvents es).1 := by
  have hs := m.isSome_snapshot_applyEvents es
  obtain ⟨t, ht⟩ := m.applyEvents_fst es
  rw [ht] at hs ⊢
  exact .irrelevant rfl rfl rfl rfl (.inl hs)

theorem leads_watchBroken (m : Member) : Outcome.irrelevant.Leads m m.watchBroken :=
  .irrelevant rfl rfl rfl rfl (.inl rfl)

theorem leads_started (m : Member) :
    Outcome.irrelevant.Leads m { m with isStarted := true } :=
  .irrelevant rfl rfl rfl rfl (.inl rfl)

theorem leads_resume (hc : m.isCancelled = false) (hp : (RoundPoint.call p).Fits m) (now : Nat)
    (r : Except Failure p.Reply) : (p.outcome r).Leads m (m.resume now p r).1 := by
  have hc' : ¬m.isCancelled = true := by simp [hc]
  cases p with
  | grant =>
      cases r with
      | error f => exact Outcome.leads_self m
      | ok lease =>
          rw [resume, if_neg hc']
          exact Outcome.leads_self m
  | publish lease =>
      cases r with
      | error f => exact Outcome.leads_self m
      | ok u =>
          rw [resume, if_neg hc']
          exact .registered lease
  | scan =>
      cases r with
      | error f => exact Outcome.leads_self m
      | ok records =>
          rw [resume, if_neg hc']
          exact .irrelevant rfl rfl rfl rfl (.inr ⟨hp, rfl⟩)
  | renew lease =>
      cases r with
      | error f =>
          rw [resume, if_neg hc']
          exact .renewalFailed (by rw [hp]; exact Option.some_ne_none lease)
      | ok u =>
          rw [resume, if_neg hc']
          exact .renewed
  | withdraw => exact hp.elim
  | retire => exact hp.elim

theorem fits_resume (hc : m.isCancelled = false) (hp : (RoundPoint.call p).Fits m) (now : Nat)
    (r : Except Failure p.Reply) : (m.resume now p r).2.Fits (m.resume now p r).1 := by
  have hc' : ¬m.isCancelled = true := by simp [hc]
  cases p with
  | grant =>
      cases r with
      | error f => exact fits_done _ _
      | ok lease =>
          rw [resume, if_neg hc']
          intro x hx
          obtain rfl := Option.some.inj hx
          exact hp
  | publish lease =>
      cases r with
      | error f => exact fits_done _ _
      | ok u =>
          rw [resume, if_neg hc']
          exact fits_syncStep (Option.some_ne_none lease) now
  | scan =>
      cases r with
      | error f => exact m.fits_renewStep
      | ok records =>
          rw [resume, if_neg hc']
          intro x hx
          obtain rfl := Option.some.inj hx
          exact hp
  | renew lease =>
      cases r <;>
        (rw [resume, if_neg hc']; exact fits_done _ _)
  | withdraw => exact hp.elim
  | retire => exact hp.elim

theorem IsSound.of_leads {o : Outcome} (h : m.IsSound) (ho : o.Leads m m') : m'.IsSound := by
  cases ho with
  | registered l => exact ⟨h.isCancelled, LeaseSettings.limit_pos _, by rintro ⟨⟩⟩
  | renewed => exact ⟨h.isCancelled, LeaseSettings.limit_pos _, h.snapshot⟩
  | renewalFailed hl =>
      obtain ⟨hnext, he⟩ := renewalFailed_eq h.failures
      rw [he]
      split
      · exact ⟨h.isCancelled, LeaseSettings.limit_pos _, fun _ => rfl⟩
      · next hne =>
          refine ⟨h.isCancelled, ?_, h.snapshot⟩
          rw [hnext]
          exact Nat.lt_of_le_of_ne h.failures hne
  | irrelevant hset hc hl hf hs =>
      refine ⟨hc.trans h.isCancelled, ?_, fun hn => ?_⟩
      · rw [hf, hset]
        exact h.failures
      · rcases hs with hs | ⟨hlease, -⟩
        · rw [h.snapshot (hl ▸ hn)] at hs
          exact Option.not_isSome_iff_eq_none.1 (by rw [hs]; exact Bool.false_ne_true)
        · exact absurd (hl ▸ hn) hlease

/-- A lease is given up by the failed renewal that makes the count reach the limit, and by nothing
else. -/
theorem IsSound.givesUp_iff {o : Outcome} (h : m.IsSound) (ho : o.Leads m m') :
    m.lease ≠ none ∧ m'.lease = none ↔
      o = .renewalFailed ∧ m.failures.toNat + 1 = m.settings.limit := by
  cases ho with
  | registered l => simp
  | renewed => simp
  | renewalFailed hl =>
      rw [(renewalFailed_eq h.failures).2]
      split
      · next he => simp [he, hl]
      · next hne => simp [hne]
  | irrelevant hset hc hl hf hs => simp [hl]

/-- With the lease the snapshot goes, and the count begins anew. -/
theorem IsSound.of_givesUp {o : Outcome} (h : m.IsSound) (ho : o.Leads m m')
    (hg : m.lease ≠ none ∧ m'.lease = none) : m'.snapshot = none ∧ m'.failures = 0 := by
  obtain ⟨rfl, hn⟩ := (h.givesUp_iff ho).1 hg
  cases ho with
  | renewalFailed hl =>
      rw [(renewalFailed_eq h.failures).2, if_pos hn]
      exact ⟨rfl, rfl⟩

/-- Otherwise the count goes on by the outcome. -/
theorem IsSound.failures_of_leads {o : Outcome} (h : m.IsSound) (ho : o.Leads m m')
    (hg : ¬(m.lease ≠ none ∧ m'.lease = none)) :
    m'.failures.toNat = o.count m.failures.toNat := by
  rw [h.givesUp_iff ho] at hg
  cases ho with
  | registered l => rfl
  | renewed => rfl
  | renewalFailed hl =>
      obtain ⟨hnext, he⟩ := renewalFailed_eq h.failures
      rw [he, if_neg fun hn => hg ⟨rfl, hn⟩]
      exact hnext
  | irrelevant hset hc hl hf hs => exact congrArg UInt8.toNat hf

/-- Without the lease the snapshot does not go either. -/
theorem IsSound.givesUp_of_snapshot {o : Outcome} (h : m.IsSound) (ho : o.Leads m m')
    (hs : m.snapshot ≠ none) (hs' : m'.snapshot = none) : m.lease ≠ none ∧ m'.lease = none := by
  have hl : m.lease ≠ none := fun hl => hs (h.snapshot hl)
  cases ho with
  | registered l => exact absurd hs' hs
  | renewed => exact absurd hs' hs
  | renewalFailed _ =>
      rw [(renewalFailed_eq h.failures).2] at hs' ⊢
      split at hs'
      · next hn => exact ⟨hl, by rw [if_pos hn]⟩
      · exact absurd hs' hs
  | irrelevant hset hc hl' hf hsome =>
      rw [← Option.isSome_iff_ne_none] at hs
      rcases hsome with he | ⟨-, he⟩
      · rw [hs', hs] at he
        cases he
      · rw [hs'] at he
        cases he

end Member

/-- A member, and where its round waits if one is under way. -/
structure Upkeep where
  member : Member
  point? : Option RoundPoint := none

namespace Upkeep

inductive Act where
  /-- A round begins, unless there is one already. -/
  | begins (now : Nat)
  /-- The call ends that the round waits for. What the store answers may depend on the call. -/
  | answered (now : Nat) (reply : (p : CallPoint) → Except Failure p.Reply)
  /-- The watchers have been told that the snapshot was read. -/
  | told
  | applies (events : List Event)
  | watchBreaks
  /-- The member is told to keep itself registered. -/
  | starts
  /-- The round is given up where it stands. -/
  | abandoned

def goesOn (s : Member × Next) : Upkeep := ⟨s.1, s.2.roundPoint?⟩

def act (u : Upkeep) : Act → Upkeep
  | .begins now =>
    match u.point? with
    | none => goesOn (u.member, u.member.tick now)
    | some _ => u
  | .answered now reply =>
    match u.point? with
    | some (.call p) => goesOn (u.member.resume now p (reply p))
    | _ => u
  | .told =>
    match u.point? with
    | some .synced => goesOn (u.member.notified .synced)
    | _ => u
  | .applies events => { u with member := (u.member.applyEvents events).1 }
  | .watchBreaks => { u with member := u.member.watchBroken }
  | .starts => { u with member := { u.member with isStarted := true } }
  | .abandoned => { u with point? := none }

def play (u : Upkeep) (acts : List Act) : Upkeep := acts.foldl act u

def outcome (u : Upkeep) : Act → Outcome
  | .answered _ reply =>
    match u.point? with
    | some (.call p) => p.outcome (reply p)
    | _ => .irrelevant
  | _ => .irrelevant

def GivesUp (u : Upkeep) (a : Act) : Prop := u.member.lease ≠ none ∧ (u.act a).member.lease = none

instance (u : Upkeep) (a : Act) : Decidable (u.GivesUp a) :=
  inferInstanceAs (Decidable (u.member.lease ≠ none ∧ (u.act a).member.lease = none))

def count (u : Upkeep) (n : Nat) (a : Act) : Nat :=
  if u.GivesUp a then 0 else (u.outcome a).count n

/-- How many renewals have failed after a run, since one succeeded, or the member was registered,
or the lease was given up; from the number before the run. -/
def failedInARow : Upkeep → Nat → List Act → Nat
  | _, n, [] => n
  | u, n, a :: acts => failedInARow (u.act a) (u.count n a) acts

/-- The member is sound, its round finds it as expected, and its count is right. -/
structure Counts (settings : LeaseSettings) (u : Upkeep) (n : Nat) : Prop where
  settings : u.member.settings = settings
  sound : u.member.IsSound
  fits : ∀ x ∈ u.point?, x.Fits u.member
  failures : u.member.failures.toNat = n

namespace Counts

variable {settings : LeaseSettings} {u : Upkeep} {n : Nat}

theorem leads_act (h : u.Counts settings n) (a : Act) :
    (u.outcome a).Leads u.member (u.act a).member := by
  cases a with
  | begins now =>
      rw [act]
      split <;> exact Outcome.leads_self _
  | answered now reply =>
      rw [outcome, act]
      cases hp : u.point? with
      | none => exact Outcome.leads_self _
      | some x =>
          cases x with
          | call p => exact Member.leads_resume h.sound.isCancelled (h.fits _ hp) now (reply p)
          | synced => exact Outcome.leads_self _
  | told =>
      rw [act]
      split <;> exact Outcome.leads_self _
  | applies events => exact u.member.leads_applyEvents events
  | watchBreaks => exact u.member.leads_watchBroken
  | starts => exact u.member.leads_started
  | abandoned => exact Outcome.leads_self _

/-- A round that has gone on finds the member as it expects it. -/
theorem fits_act (h : u.Counts settings n) (a : Act) :
    ∀ x ∈ (u.act a).point?, x.Fits (u.act a).member := by
  cases a with
  | begins now =>
      rw [act]
      split
      · exact u.member.fits_tick now
      · exact h.fits
  | answered now reply =>
      rw [act]
      split
      · next p hp => exact Member.fits_resume h.sound.isCancelled (h.fits _ hp) now (reply p)
      · exact h.fits
  | told =>
      rw [act]
      split
      · exact u.member.fits_renewStep
      · exact h.fits
  | applies events =>
      obtain ⟨t, ht⟩ := u.member.applyEvents_fst events
      rw [act, ht]
      exact fun x hx => (h.fits x hx).of_lease rfl
  | watchBreaks => exact fun x hx => (h.fits x hx).of_lease rfl
  | starts => exact fun x hx => (h.fits x hx).of_lease rfl
  | abandoned => rintro x ⟨⟩

theorem act (h : u.Counts settings n) (a : Act) : (u.act a).Counts settings (u.count n a) := by
  have hlead := h.leads_act a
  refine ⟨hlead.settings.trans h.settings, h.sound.of_leads hlead, h.fits_act a, ?_⟩
  rw [count, ← h.failures]
  split
  · next hg =>
      rw [(h.sound.of_givesUp hlead hg).2]
      rfl
  · next hg => exact h.sound.failures_of_leads hlead hg

theorem play (h : u.Counts settings n) (acts : List Act) :
    (u.play acts).Counts settings (u.failedInARow n acts) := by
  induction acts generalizing u n with
  | nil => exact h
  | cons a acts ih => exact ih (h.act a)

end Counts

def new (node : Node) (settings : LeaseSettings) : Upkeep := ⟨{ node, settings }, none⟩

theorem counts_new (node : Node) (settings : LeaseSettings) :
    (new node settings).Counts settings 0 where
  settings := rfl
  sound := ⟨rfl, settings.limit_pos, fun _ => rfl⟩
  fits := by rintro x ⟨⟩
  failures := rfl

/-- After every run the member has counted right, and below the limit, so its counter never runs
over. What comes next takes the lease away exactly if it is the failed renewal that makes the count
reach the limit. The snapshot goes with the lease, and never without it. -/
theorem failures_eq_failedInARow (node : Node) (settings : LeaseSettings) (acts : List Act) :
    let u := (new node settings).play acts
    let n := (new node settings).failedInARow 0 acts
    u.member.failures.toNat = n ∧ n < max 1 settings.maxKeepAliveRetry.toNat ∧
      (u.member.failures + 1).toNat = n + 1 ∧
      (u.member.snapshot ≠ none → u.member.lease ≠ none) ∧
      ∀ a,
        (u.GivesUp a ↔
          u.outcome a = .renewalFailed ∧ n + 1 = max 1 settings.maxKeepAliveRetry.toNat) ∧
        (u.GivesUp a → (u.act a).member.snapshot = none ∧ (u.act a).member.failures = 0) ∧
        (u.member.snapshot ≠ none → (u.act a).member.snapshot = none → u.GivesUp a) := by
  intro u n
  have h : u.Counts settings n := (counts_new node settings).play acts
  have hlimit : u.member.settings.limit = max 1 settings.maxKeepAliveRetry.toNat := by
    rw [h.settings, LeaseSettings.limit]
  refine ⟨h.failures, ?_, ?_, fun hs hl => hs (h.sound.snapshot hl), fun a => ⟨?_, ?_, ?_⟩⟩
  · rw [← h.failures, ← hlimit]
    exact h.sound.failures
  · rw [← h.failures]
    exact (Member.renewalFailed_eq h.sound.failures).1
  · rw [← h.failures, ← hlimit]
    exact h.sound.givesUp_iff (h.leads_act a)
  · exact h.sound.of_givesUp (h.leads_act a)
  · exact h.sound.givesUp_of_snapshot (h.leads_act a)

end Upkeep

end ServiceMesh
