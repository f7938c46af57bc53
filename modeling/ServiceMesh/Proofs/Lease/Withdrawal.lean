import ServiceMesh.Proofs.Lease.Routine

/-!
A withdrawal beside a round of upkeep. Both may write or delete the record of the member, and both
may give up on a call that the store has carried out. The record stays behind in one case only: the
round publishes it after the withdrawal has deleted it, and does not learn of that in time. As long
as this has not happened, whoever wrote the record last still owes its deletion.
-/

namespace ServiceMesh

/-- The caller will delete the record of the member when it goes on: it is about to, or it has
published the record and is told so in time. -/
def Flight.Owes (f : Flight) : Prop :=
  (f.point.kind = .delete ∧ ¬∃ r, f.reply = some (.ok r)) ∨
    (f.point.kind = .put ∧ f.answersAt ≤ f.deadline ∧ ∃ r, f.reply = some (.ok r))

/-- The call publishes the record now, and its caller gives up before the answer is there. -/
structure Flight.PublishesUnheard (f : Flight) (m : Member) (now : Nat) (s : Store) : Prop where
  kind : f.point.kind = .put
  reply : f.reply = none
  due : f.actsAt ≤ now
  inTime : f.actsAt ≤ f.deadline
  late : f.deadline < f.answersAt
  succeeds : ∃ r, (f.point.perform m s).2 = .ok r

instance (f : Flight) (m : Member) (now : Nat) (s : Store) :
    Decidable (f.PublishesUnheard m now s) :=
  decidable_of_iff
    (f.point.kind = .put ∧ f.reply = none ∧ f.actsAt ≤ now ∧ f.actsAt ≤ f.deadline ∧
      f.deadline < f.answersAt ∧ (f.point.perform m s).2.isOk = true) (by
    constructor
    · rintro ⟨hk, hr, hdue, hin, hlate, hok⟩
      refine ⟨hk, hr, hdue, hin, hlate, ?_⟩
      cases hp : (f.point.perform m s).2 with
      | ok r => exact ⟨r, rfl⟩
      | error e => rw [hp] at hok; cases hok
    · rintro ⟨hk, hr, hdue, hin, hlate, r, hok⟩
      exact ⟨hk, hr, hdue, hin, hlate, by rw [hok]; rfl⟩)

namespace Cluster

variable {p : String} {T D : Nat}

/-- A task of the party is in the middle of a round of upkeep, and no other task has anything to do
with the member but to apply events. -/
structure InRound (p : String) (T : Nat) (c : Cluster) : Prop where
  tidy : c.Tidy
  hasMember : c.HasMember p
  round : ∃ x ∈ c.wait? p T, x.errand = .upkeep
  others : ∀ t ∈ c.tasks, t.id ≠ T → t.work.party = p →
    ∀ x ∈ t.work.wait?, x.errand = .application

/-- What is done neither drops the round or the withdrawal nor starts another withdrawal, and the
party keeps its member. -/
def Undisturbed (p : String) (T D : Nat) (_ : Cluster) (a : Act) : Prop :=
  (∀ P, a ≠ .join p P) ∧ a ≠ .start p .withdrawal ∧ a ≠ .drop T ∧ a ≠ .drop D

def DeletionsSucceed (p : String) (c : Cluster) (a : Act) : Prop :=
  ∀ id, a = .step id → ∀ f ∈ c.flight? p id, f.point.kind = .delete → ¬f.Fails c.now

def Foreign (p : String) (c : Cluster) (a : Act) : Prop := ∀ id, a = .step id → c.work? p id = none

def record? (c : Cluster) (p : String) : Option (List UInt8) :=
  (c.leased? p).bind fun l => (c.store l.store).get? l.member.node.path

def NobodyWrites (p : String) (c : Cluster) (a : Act) : Prop :=
  c.Foreign p a → c.record? p = none → (c.act a).record? p = none

def NobodyDeletes (p : String) (c : Cluster) (a : Act) : Prop :=
  c.Foreign p a → c.record? p ≠ none → (c.act a).record? p ≠ none

/-- After the withdrawal has deleted the record, the round publishes it and will not learn that it
has. -/
def PublishesBehind (p : String) (T D : Nat) (c : Cluster) (a : Act) : Prop :=
  a = .step T ∧ (∀ g ∈ c.flight? p D, g.reply ≠ none) ∧
    ∃ f ∈ c.flight? p T, ∃ l ∈ c.leased? p,
      f.PublishesUnheard l.member c.now (c.store l.store)

/-! Whether a run is one of these can be computed. -/

instance (p : String) (T : Nat) (c : Cluster) : Decidable (InRound p T c) :=
  decidable_of_iff
    (c.Tidy ∧ c.HasMember p ∧ (∃ x ∈ c.wait? p T, x.errand = .upkeep) ∧
      ∀ t ∈ c.tasks, t.id ≠ T → t.work.party = p → ∀ x ∈ t.work.wait?, x.errand = .application)
    ⟨fun h => ⟨h.1, h.2.1, h.2.2.1, h.2.2.2⟩, fun h => ⟨h.1, h.2, h.3, h.4⟩⟩

instance (p : String) (T D : Nat) (c : Cluster) (a : Act) : Decidable (Undisturbed p T D c a) :=
  match a with
  | .join q P => decidable_of_iff (q ≠ p) (by simp [Undisturbed])
  | .start q .withdrawal => decidable_of_iff (q ≠ p) (by simp [Undisturbed])
  | .start q .upkeep => isTrue (by simp [Undisturbed])
  | .start q (.apply es) => isTrue (by simp [Undisturbed])
  | .drop id => decidable_of_iff (id ≠ T ∧ id ≠ D) (by simp [Undisturbed])
  | .step id => isTrue (by simp [Undisturbed])
  | .pass ms => isTrue (by simp [Undisturbed])
  | .use i op => isTrue (by simp [Undisturbed])
  | .slow q k d => isTrue (by simp [Undisturbed])
  | .register q => isTrue (by simp [Undisturbed])
  | .feedIn q what => isTrue (by simp [Undisturbed])
  | .useBus q op => isTrue (by simp [Undisturbed])

instance (p : String) (c : Cluster) (a : Act) : Decidable (Foreign p c a) :=
  decidable_of_iff (∀ id ∈ a.step?, (c.work? p id).isNone = true)
    (by simp only [Foreign, Act.eq_step_iff, Option.isNone_iff_eq_none])

instance (p : String) (c : Cluster) (a : Act) : Decidable (DeletionsSucceed p c a) :=
  decidable_of_iff
    (∀ id ∈ a.step?, ∀ f ∈ c.flight? p id, f.point.kind = .delete → ¬f.Fails c.now)
    (by simp only [DeletionsSucceed, Act.eq_step_iff])

instance (p : String) (T D : Nat) (c : Cluster) (a : Act) :
    Decidable (PublishesBehind p T D c a) :=
  decidable_of_iff
    (T ∈ a.step? ∧ (∀ g ∈ c.flight? p D, g.reply ≠ none) ∧
      ∃ f ∈ c.flight? p T, ∃ l ∈ c.leased? p,
        f.PublishesUnheard l.member c.now (c.store l.store))
    (by simp only [PublishesBehind, Act.eq_step_iff])

instance (p : String) (c : Cluster) (a : Act) : Decidable (NobodyWrites p c a) :=
  inferInstanceAs (Decidable (_ → _ → _))

end Cluster

namespace Scene

def record? (σ : Scene) : Option (List UInt8) := σ.store.get? σ.member.node.path

/-- A withdrawn member with one round of upkeep and one withdrawal under way, or what is left of
them. -/
structure Withdrawing (T D : Nat) (σ : Scene) : Prop where
  isCancelled : σ.member.isCancelled = true
  ne : T ≠ D
  lt_round : T < σ.nextTask
  lt_withdrawal : D < σ.nextTask
  errand : ∀ id x, σ.wait? id = some x →
    x.errand = if id = T then .upkeep else if id = D then .withdrawal else .application

/-- Someone still owes the deletion of the record. -/
def Covered (σ : Scene) : Prop :=
  σ.record? ≠ none → ∃ id f, σ.wait? id = some (.call f) ∧ f.Owes

/-- Nobody will delete the record any more: the withdrawal has done so already, and the round, if it
still waits, will never learn that it has published the record. -/
structure Abandoned (T D : Nat) (σ : Scene) : Prop where
  withdrawal : ∀ g, σ.wait? D = some (.call g) → g.reply ≠ none
  round : ∀ x, σ.wait? T = some x →
    ∃ f, x = .call f ∧ f.point.kind = .put ∧ f.reply ≠ none ∧ f.deadline < f.answersAt

variable {p : String} {T D : Nat} {σ σ' : Scene} {a : Cluster.Act}

theorem record?_of_eq (hs : σ'.store = σ.store) (hn : σ'.member.node = σ.member.node) :
    σ'.record? = σ.record? := by
  rw [record?, record?, hs, hn]

namespace Withdrawing

/-- Calls are made by the round and by the withdrawal only. -/
theorem eq_or_eq_of_call (h : σ.Withdrawing T D) {id : Nat} {f : Flight}
    (hf : σ.wait? id = some (.call f)) : id = T ∨ id = D := by
  by_contra hne
  obtain ⟨hT, hD⟩ := not_or.1 hne
  have he := h.errand id _ hf
  rw [if_neg hT, if_neg hD] at he
  change f.point.errand = .application at he
  -- events are applied without a call
  cases hp : f.point <;> (rw [hp] at he; cases he)

/-- A routine of the member goes on, or nothing of the round and the withdrawal changes. In the
second case the store is changed by others only. -/
inductive Move (T D : Nat) (σ : Scene) (a : Cluster.Act) (σ' : Scene) : Prop where
  | advance {id : Nat} {x : Wait} {m : Member} {s : Store} {r : Wait ⊕ Except Failure Unit}
      (ha : a = .step id) (hx : σ.wait? id = some x) (h : σ.Advances x m s r) (hs : σ'.store = s)
      (hw : ∀ i, σ'.wait? i = if i = id then r.getLeft? else σ.wait? i)
  | rest (hs : σ'.store = σ.store ∨ ∀ id, a = .step id → σ.work id = none)
      (hw : ∀ i, i = T ∨ i = D → σ'.wait? i = σ.wait? i)

structure Kept (T D : Nat) (σ : Scene) (a : Cluster.Act) (σ' : Scene) : Prop where
  withdrawing : σ'.Withdrawing T D
  node : σ'.member.node = σ.member.node
  move : Move T D σ a σ'

theorem kept_steps (h : σ.Withdrawing T D) {id : Nat} {w : Work} {w' : Option Work} {m : Member}
    {s : Store} (hw : σ.work id = some w) (hg : σ.Goes p w m s w') :
    Kept T D σ (.step id) ((σ.put m s).setWork id w') := by
  have halike := hg.alike
  cases hx : w.wait? with
  | none =>
      obtain ⟨rfl, rfl, hnone⟩ := hg.of_isCancelled h.isCancelled hx
      have hwait (i : Nat) :
          ((σ.put σ.member σ.store).setWork id w').wait? i = σ.wait? i := by
        rw [wait?_setWork]
        split
        · next hi =>
            rw [hnone, hi, wait?, hw]
            exact hx.symm
        · rfl
      refine ⟨⟨h.isCancelled, h.ne, h.lt_round, h.lt_withdrawal, fun i x hi => ?_⟩, rfl,
        .rest (.inl rfl) fun i _ => hwait i⟩
      rw [hwait] at hi
      exact h.errand i x hi
  | some x =>
      obtain ⟨r, hr, hw'⟩ := hg.advances hx
      have hid : σ.wait? id = some x := by rw [wait?, hw]; exact hx
      have hwait (i : Nat) : ((σ.put m s).setWork id w').wait? i =
          if i = id then r.getLeft? else σ.wait? i := by
        rw [wait?_setWork, hw']
        rfl
      refine ⟨⟨?_, h.ne, h.lt_round, h.lt_withdrawal, fun i y hi => ?_⟩, halike.node,
        .advance rfl hid hr rfl hwait⟩
      · exact halike.isCancelled.trans h.isCancelled
      · rw [hwait] at hi
        split at hi
        · next he =>
            rw [he, hr.errand y hi]
            exact h.errand id x hid
        · exact h.errand i y hi

theorem kept_starts (h : σ.Withdrawing T D) {r : Routine} (hr : r ≠ .withdrawal) {w : Wait}
    (hc : σ.Continues (σ.member.start σ.now r) (.inl w)) :
    Kept T D σ (.start p r) ((σ.put (σ.member.start σ.now r).1 σ.store).spawn (.routine p w)) := by
  have halike := σ.member.alike_start σ.now hr
  have herrand : w.errand = .application := by
    cases r with
    | upkeep =>
        -- a round of upkeep is over at once
        have htick : σ.member.tick σ.now = .done (.ok ()) := by
          rw [Member.tick, if_pos h.isCancelled]
        change Leased.Issues _ _ (σ.member.tick σ.now) _ at hc
        rw [htick] at hc
        cases hc
    | apply es => exact hc.errand (Member.isFor_applyEvents _ es) w rfl
    | withdrawal => exact absurd rfl hr
  have hwait (i : Nat) :
      ((σ.put (σ.member.start σ.now r).1 σ.store).spawn (.routine p w)).wait? i =
        if i = σ.nextTask then some w else σ.wait? i := by
    rw [wait?_spawn]
    rfl
  have hT := h.lt_round
  have hD := h.lt_withdrawal
  refine ⟨⟨?_, h.ne, Nat.lt_succ_of_lt hT, Nat.lt_succ_of_lt hD, fun i x hi => ?_⟩, halike.node,
    .rest (.inl rfl) fun i hi => ?_⟩
  · exact halike.isCancelled.trans h.isCancelled
  · rw [hwait] at hi
    split at hi
    · next he =>
        obtain rfl := Option.some.inj hi
        rw [if_neg (by omega), if_neg (by omega), herrand]
    · exact h.errand i x hi
  · rw [hwait, if_neg (by omega)]

theorem kept_drops (h : σ.Withdrawing T D) {id : Nat} (hT : id ≠ T) (hD : id ≠ D) :
    Kept T D σ (.drop id) (σ.setWork id none) := by
  have hwait (i : Nat) : (σ.setWork id none).wait? i = if i = id then none else σ.wait? i :=
    wait?_setWork σ id none i
  refine ⟨⟨h.isCancelled, h.ne, h.lt_round, h.lt_withdrawal, fun i x hi => ?_⟩, rfl,
    .rest (.inl rfl) fun i hi => ?_⟩
  · rw [hwait] at hi
    split at hi
    · cases hi
    · exact h.errand i x hi
  · rw [hwait, if_neg (by omega)]

theorem kept (h : σ.Withdrawing T D) (hs : σ.Step p a σ') (hstart : a ≠ .start p .withdrawal)
    (hT : a ≠ .drop T) (hD : a ≠ .drop D) : Kept T D σ a σ' := by
  cases hs with
  | elsewhere hsp hother =>
      have hwait (i : Nat) : σ'.wait? i = σ.wait? i := by rw [wait?, wait?, hsp.work]
      have hmember : σ'.member = σ.member := congrArg Leased.member hsp.leased
      refine ⟨⟨?_, h.ne, ?_, ?_, fun i x hi => ?_⟩, by rw [hmember],
        .rest (.inr hother) fun i _ => hwait i⟩
      · rw [hmember]; exact h.isCancelled
      · exact Nat.lt_of_lt_of_le h.lt_round hsp.nextTask
      · exact Nat.lt_of_lt_of_le h.lt_withdrawal hsp.nextTask
      · exact h.errand i x (hwait i ▸ hi)
  | waits hw hidle => exact ⟨h, rfl, .rest (.inl rfl) fun _ _ => rfl⟩
  | steps hw hg => exact h.kept_steps hw hg
  | slows k d =>
      exact ⟨⟨h.isCancelled, h.ne, h.lt_round, h.lt_withdrawal, h.errand⟩, rfl,
        .rest (.inl rfl) fun _ _ => rfl⟩
  | starts hc => exact h.kept_starts (fun he => hstart (he ▸ rfl)) hc
  | @startsAndEnds r res hc =>
      have halike := σ.member.alike_start σ.now (r := r) fun he => hstart (he ▸ rfl)
      exact ⟨⟨halike.isCancelled.trans h.isCancelled, h.ne, Nat.lt_succ_of_lt h.lt_round,
        Nat.lt_succ_of_lt h.lt_withdrawal, h.errand⟩, halike.node, .rest (.inl rfl) fun _ _ => rfl⟩
  | registers hc hs =>
      rw [h.isCancelled] at hc
      cases hc
  | drops id => exact h.kept_drops (fun he => hT (he ▸ rfl)) fun he => hD (he ▸ rfl)
  | feedsIn what =>
      refine ⟨⟨h.isCancelled, h.ne, h.lt_round, h.lt_withdrawal, fun i x hi => ?_⟩, rfl,
        .rest (.inl rfl) fun i _ => wait?_feedIn σ what i⟩
      rw [wait?_feedIn] at hi
      exact h.errand i x hi

/-- Publications are made by the round. -/
theorem eq_of_put (h : σ.Withdrawing T D) {id : Nat} {f : Flight}
    (hf : σ.wait? id = some (.call f)) (hk : f.point.kind = .put) : id = T := by
  rcases h.eq_or_eq_of_call hf with hid | hid
  · exact hid
  · have he := h.errand id _ hf
    rw [if_neg (hid ▸ Ne.symm h.ne), if_pos hid] at he
    change f.point.errand = .withdrawal at he
    cases hp : f.point <;> (rw [hp] at he hk; cases he <;> cases hk)

/-- The withdrawal calls for nothing but the deletion. -/
theorem kind_of_withdrawal (h : σ.Withdrawing T D) {g : Flight}
    (hg : σ.wait? D = some (.call g)) : g.point.kind = .delete := by
  have he := h.errand D _ hg
  rw [if_neg (Ne.symm h.ne), if_pos rfl] at he
  change g.point.errand = .withdrawal at he
  cases hp : g.point with
  | retire => rfl
  | _ => rw [hp] at he; cases he

end Withdrawing

def PublishesBehind (T D : Nat) (σ : Scene) (a : Cluster.Act) : Prop :=
  a = .step T ∧ (∀ g, σ.wait? D = some (.call g) → g.reply ≠ none) ∧
    ∃ f, σ.wait? T = some (.call f) ∧ f.PublishesUnheard σ.member σ.now σ.store

/-- A record that is there stays covered if what covers it keeps waiting. -/
theorem Covered.of_wait? (hc : σ.Covered) (hr : σ'.record? ≠ none → σ.record? ≠ none)
    (hw : ∀ id f, σ.wait? id = some (.call f) → f.Owes → σ'.wait? id = some (.call f)) :
    σ'.Covered := by
  intro hpres
  obtain ⟨id, f, hf, ho⟩ := hc (hr hpres)
  exact ⟨id, f, hw id f hf ho, ho⟩

theorem Covered.acts (h : σ.Withdrawing T D) (hc : σ.Covered) {id : Nat} {f : Flight}
    (hf : σ.wait? id = some (.call f)) (hr : f.reply = none) (hdue : f.actsAt ≤ σ.now)
    (hin : f.actsAt ≤ f.deadline) (hnode : σ'.member.node = σ.member.node)
    (hs : σ'.store = (f.point.perform σ.member σ.store).1)
    (hw : ∀ i, σ'.wait? i = if i = id then
      some (.call { f with reply := some (f.point.perform σ.member σ.store).2 }) else σ.wait? i)
    (hbehind : ¬σ.PublishesBehind T D (.step id)) : σ'.Covered := by
  have hid : σ'.wait? id =
      some (.call { f with reply := some (f.point.perform σ.member σ.store).2 }) := by
    rw [hw, if_pos rfl]
  have hrecord : σ'.record? =
      (f.point.perform σ.member σ.store).1.get? σ.member.node.path := by
    rw [record?, hs, hnode]
  -- a call that has not acted covers nothing unless it is a deletion
  have hsame (hk : f.point.kind ≠ .delete) (hsame : σ'.record? = σ.record?) : σ'.Covered := by
    refine hc.of_wait? (fun hpres => hsame ▸ hpres) fun i g hg ho => ?_
    rw [hw, if_neg, hg]
    rintro rfl
    obtain rfl : g = f := by simpa using hg.symm.trans hf
    rcases ho with ⟨hdel, -⟩ | ⟨-, -, r, hok⟩
    · exact hk hdel
    · cases hr.symm.trans hok
  by_cases hdel : f.point.kind = .delete
  · cases hp : (f.point.perform σ.member σ.store).2 with
    | ok r =>
        intro hpres
        exact absurd (hrecord.trans (CallPoint.get?_perform_of_delete hdel hp)) hpres
    | error e =>
        refine fun _ => ⟨id, _, hid, .inl ⟨hdel, ?_⟩⟩
        rintro ⟨r, hok⟩
        cases hp.symm.trans (Option.some.inj hok)
  · by_cases hput : f.point.kind = .put
    · cases hp : (f.point.perform σ.member σ.store).2 with
      | error e =>
          refine hsame hdel ?_
          rw [hrecord, CallPoint.perform_of_error hp, record?]
      | ok r =>
          intro _
          by_cases htime : f.answersAt ≤ f.deadline
          · exact ⟨id, _, hid, .inr ⟨hput, htime, r, congrArg some hp⟩⟩
          · -- the withdrawal has not deleted the record yet, or all is lost
            obtain rfl := h.eq_of_put hf hput
            by_contra hno
            refine hbehind ⟨rfl, fun g hg hnone => hno ?_, f, hf, hput, hr, hdue, hin, by omega,
              r, hp⟩
            refine ⟨D, g, ?_, .inl ⟨h.kind_of_withdrawal hg, by simp [hnone]⟩⟩
            rw [hw, if_neg (Ne.symm h.ne), hg]
    · exact hsame hdel (hrecord.trans (CallPoint.get?_perform hdel hput _))

theorem Covered.resumes (h : σ.Withdrawing T D) (hc : σ.Covered) {id : Nat} {f : Flight}
    (hf : σ.wait? id = some (.call f)) {reply : Except Failure f.point.Reply}
    (hy : f.Yields σ.now reply) {r : Wait ⊕ Except Failure Unit}
    (hr : σ.Continues (σ.member.resume σ.now f.point reply) r)
    (hrecord : σ'.record? = σ.record?)
    (hw : ∀ i, σ'.wait? i = if i = id then r.getLeft? else σ.wait? i)
    (hdel : f.point.kind = .delete → ¬f.Fails σ.now) : σ'.Covered := by
  by_cases howes : f.Owes
  · rcases howes with ⟨hk, hno⟩ | ⟨hk, htime, u, hok⟩
    · -- the deletion cannot end: it has not succeeded, and it does not fail
      cases reply with
      | ok u => exact absurd ⟨u, hy.reply_eq⟩ hno
      | error e => exact absurd ⟨e, hy⟩ (hdel hk)
    · -- the round learns that it has published, and sets out to delete
      obtain rfl := hy.eq_of_reply hok htime
      rw [Continues, Member.resume_put_of_isCancelled hk h.isCancelled] at hr
      cases hr
      refine fun _ => ⟨id, _, by rw [hw, if_pos rfl]; rfl, .inl ⟨rfl, ?_⟩⟩
      rintro ⟨v, hv⟩
      cases hv
  · refine hc.of_wait? (fun hpres => hrecord ▸ hpres) fun i g hg ho => ?_
    rw [hw, if_neg, hg]
    rintro rfl
    obtain rfl : g = f := by simpa using hg.symm.trans hf
    exact howes ho

/-- Unless the round publishes behind the withdrawal, the record stays covered. -/
theorem Covered.step (h : σ.Withdrawing T D) (hc : σ.Covered) (hk : Withdrawing.Kept T D σ a σ')
    (hdel : ∀ id f, a = .step id → σ.wait? id = some (.call f) → f.point.kind = .delete →
      ¬f.Fails σ.now)
    (hwrites : (∀ id, a = .step id → σ.work id = none) → σ.record? = none → σ'.record? = none)
    (hbehind : ¬σ.PublishesBehind T D a) : σ'.Covered := by
  have hnode := hk.node
  cases hk.move with
  | @advance id x m s r ha hx hadv hs hw =>
      subst ha
      cases hadv with
      | acts hr hdue hin => exact hc.acts h hx hr hdue hin hnode hs hw hbehind
      | resumes hy hr => exact hc.resumes h hx hy hr (record?_of_eq hs hnode) hw (hdel id _ rfl hx)
      | held n' =>
          refine hc.of_wait? (fun hpres => record?_of_eq hs hnode ▸ hpres) fun i g hg _ => ?_
          rw [hw, if_neg, hg]
          rintro rfl
          cases hg.symm.trans hx
      | told hr =>
          refine hc.of_wait? (fun hpres => record?_of_eq hs hnode ▸ hpres) fun i g hg _ => ?_
          rw [hw, if_neg, hg]
          rintro rfl
          cases hg.symm.trans hx
  | rest hs hw =>
      refine hc.of_wait? ?_ fun i g hg _ => (hw i (h.eq_or_eq_of_call hg)).trans hg
      intro hpres
      rcases hs with hs | hother
      · exact record?_of_eq hs hnode ▸ hpres
      · exact fun hnone => hpres (hwrites hother hnone)

/-- When the round has published behind the withdrawal, the record is there and nobody will delete
it. -/
theorem PublishesBehind.abandoned (h : σ.Withdrawing T D) (hb : σ.PublishesBehind T D a)
    (hs : σ.Step p a σ') : σ'.Abandoned T D ∧ σ'.record? ≠ none := by
  obtain ⟨rfl, hD, f, hf, hp⟩ := hb
  obtain ⟨w, hw, hwait⟩ := Option.bind_eq_some_iff.1 hf
  cases hs with
  | elsewhere _ hother => cases (hother T rfl).symm.trans hw
  | @waits _ w' hw' hidle =>
      obtain rfl := Option.some.inj (hw'.symm.trans hw)
      -- a call that is due does not wait
      have hlate : σ.now < f.actsAt := by
        refine hidle.due _ ?_
        rw [Work.dueAt_of_wait? hwait, Wait.dueAt, hp.reply]
        exact List.mem_cons_self
      have hdue := hp.due
      omega
  | @steps _ w' w'' m s hw' hg =>
      obtain rfl := Option.some.inj (hw'.symm.trans hw)
      obtain ⟨r, hr, hnext⟩ := hg.advances hwait
      have hT : ((σ.put m s).setWork T w'').wait? T = r.getLeft? := by
        rw [wait?_setWork, if_pos rfl, hnext]
      have hother : ((σ.put m s).setWork T w'').wait? D = σ.wait? D := by
        rw [wait?_setWork, if_neg (Ne.symm h.ne), wait?_put]
      cases hr with
      | acts hnone hdue hin =>
          obtain ⟨u, hok⟩ := hp.succeeds
          refine ⟨⟨fun g hg => hD g (hother ▸ hg), fun x hx => ?_⟩, ?_⟩
          · rw [hT] at hx
            obtain rfl := Option.some.inj hx
            exact ⟨_, rfl, hp.kind, by simp, hp.late⟩
          · change (f.point.perform σ.member σ.store).1.get? σ.member.node.path ≠ none
            rw [CallPoint.get?_perform_of_put hp.kind hok]
            simp
      | resumes hy hcont =>
          have hin := hp.inTime
          cases hy with
          | answer hr _ _ => cases hp.reply.symm.trans hr
          | unsent _ hlate _ => omega
          | unheard hr _ _ => cases hp.reply.symm.trans hr

/-- A routine that goes on leaves an abandoned record alone, and it does not begin to see to it. -/
theorem Abandoned.advance (h : σ.Withdrawing T D) (hl : σ.Abandoned T D) {id : Nat} {x : Wait}
    {m : Member} {s : Store} {r : Wait ⊕ Except Failure Unit} (hx : σ.wait? id = some x)
    (ha : σ.Advances x m s r) :
    s = σ.store ∧ (id = T → r.getLeft? = none) ∧
      (id = D → ∀ g, r.getLeft? = some (.call g) → g.reply ≠ none) := by
  cases ha with
  | @acts f hr hdue hin =>
      rcases h.eq_or_eq_of_call hx with rfl | rfl
      · obtain ⟨f', he, -, hacted, -⟩ := hl.round _ hx
        cases he
        exact absurd hr hacted
      · exact absurd hr (hl.withdrawal f hx)
  | @resumes f reply _ hy hc =>
      refine ⟨rfl, ?_, ?_⟩
      · rintro rfl
        obtain ⟨f', he, hk, hacted, hlate⟩ := hl.round _ hx
        cases he
        cases hy with
        | answer _ _ hin => omega
        | unsent hn _ _ => exact absurd hn hacted
        | unheard _ _ _ =>
            -- the answer is late, and a round that gives up on a publication ends
            rw [Continues, Member.resume_put_error hk] at hc
            cases hc
            rfl
      · rintro rfl g hg
        have hcall := hc.getLeft?_ne_call (Member.resume_delete_ne_call (h.kind_of_withdrawal hx) _)
        exact absurd hg (hcall g)
  | held n' =>
      refine ⟨rfl, ?_, (by rintro _ g ⟨⟩)⟩
      rintro rfl
      obtain ⟨f, he, -⟩ := hl.round _ hx
      cases he
  | @told n point _ hc =>
      refine ⟨rfl, ?_, ?_⟩
      · rintro rfl
        obtain ⟨f, he, -⟩ := hl.round _ hx
        cases he
      · rintro rfl g hg
        have he := h.errand _ _ hx
        rw [if_neg (Ne.symm h.ne), if_pos rfl] at he
        rw [Continues, Member.notified_of_withdrawal _ he] at hc
        cases hc
        cases hg

/-- An abandoned record stays abandoned, and it is there as long as nobody else deletes it. -/
theorem Abandoned.step (h : σ.Withdrawing T D) (hl : σ.Abandoned T D)
    (hk : Withdrawing.Kept T D σ a σ') :
    σ'.Abandoned T D ∧
      (((∀ id, a = .step id → σ.work id = none) → σ.record? ≠ none → σ'.record? ≠ none) →
        σ.record? ≠ none → σ'.record? ≠ none) := by
  have hnode := hk.node
  cases hk.move with
  | @advance id x m s r ha hx hadv hs hw =>
      obtain ⟨rfl, hT, hD⟩ := hl.advance h hx hadv
      refine ⟨⟨fun g hg => ?_, fun y hy => ?_⟩, fun _ hpres => record?_of_eq hs hnode ▸ hpres⟩
      · rw [hw] at hg
        split at hg
        · next he => exact hD he.symm g hg
        · exact hl.withdrawal g hg
      · rw [hw] at hy
        split at hy
        · next he => cases (hT he.symm).symm.trans hy
        · exact hl.round y hy
  | rest hs hw =>
      refine ⟨⟨fun g hg => ?_, fun y hy => ?_⟩, fun hdeletes hpres => ?_⟩
      · exact hl.withdrawal g (hw D (.inr rfl) ▸ hg)
      · exact hl.round y (hw T (.inl rfl) ▸ hy)
      · rcases hs with hs | hother
        · exact record?_of_eq hs hnode ▸ hpres
        · exact hdeletes hother hpres

end Scene

namespace Cluster

variable {p : String} {T D : Nat} {c : Cluster} {σ σ' : Scene} {a : Act} {acts : List Act}

theorem Shows.record? (h : c.Shows p σ) : c.record? p = σ.record? := by
  rw [Cluster.record?, h.leased, Option.bind_some, h.store]
  rfl

theorem Shows.foreign_iff (h : c.Shows p σ) :
    c.Foreign p a ↔ ∀ id, a = .step id → σ.work id = none := by
  simp only [Foreign, h.work]

theorem Shows.publishesBehind_iff (h : c.Shows p σ) :
    c.PublishesBehind p T D a ↔ σ.PublishesBehind T D a := by
  simp only [PublishesBehind, Scene.PublishesBehind, mem_flight?_iff, h.wait?, h.leased, h.now]
  constructor
  · rintro ⟨ha, hD, f, hf, l, hl, hp⟩
    obtain rfl := Option.some.inj hl
    exact ⟨ha, hD, f, hf, h.store ▸ hp⟩
  · rintro ⟨ha, hD, f, hf, hp⟩
    exact ⟨ha, hD, f, hf, _, rfl, h.store.symm ▸ hp⟩

theorem Shows.withdrawal_act (h : c.Shows p σ) (ht : c.Tidy) (hw : σ.Withdrawing T D)
    (ha : Undisturbed p T D c a) :
    ∃ σ', (c.act a).Shows p σ' ∧ σ.Step p a σ' ∧ Scene.Withdrawing.Kept T D σ a σ' := by
  obtain ⟨hjoin, hstart, hT, hD⟩ := ha
  obtain ⟨σ', h', hs⟩ := h.act ht hjoin
  exact ⟨σ', h', hs, hw.kept hs hstart hT hD⟩

/-- A record that the round published behind the withdrawal stays. -/
theorem record?_of_abandoned (h : c.Shows p σ) (ht : c.Tidy) (hw : σ.Withdrawing T D)
    (hl : σ.Abandoned T D) (hpres : σ.record? ≠ none) (hund : Along (Undisturbed p T D) c acts)
    (hdeletes : Along (NobodyDeletes p) c acts) : (c.play acts).record? p ≠ none := by
  induction acts generalizing c σ with
  | nil =>
      rw [play_nil, h.record?]
      exact hpres
  | cons a acts ih =>
      obtain ⟨σ', h', -, hk⟩ := h.withdrawal_act ht hw hund.1
      obtain ⟨hl', hpres'⟩ := hl.step hw hk
      refine ih h' (ht.act a) hk.withdrawing hl' (hpres' (fun hf hp => ?_) hpres) hund.2 hdeletes.2
      rw [← h'.record?]
      exact hdeletes.1 (h.foreign_iff.2 hf) (h.record?.symm ▸ hp)

theorem record?_of_publishesBehind (h : c.Shows p σ) (ht : c.Tidy) (hw : σ.Withdrawing T D)
    (hund : Along (Undisturbed p T D) c acts) (hdeletes : Along (NobodyDeletes p) c acts)
    (hb : Sometime (PublishesBehind p T D) c acts) : (c.play acts).record? p ≠ none := by
  induction acts generalizing c σ with
  | nil => exact hb.elim
  | cons a acts ih =>
      obtain ⟨σ', h', hs, hk⟩ := h.withdrawal_act ht hw hund.1
      rcases hb with hb | hb
      · obtain ⟨hl, hpres⟩ := (h.publishesBehind_iff.1 hb).abandoned hw hs
        rw [play_cons]
        exact record?_of_abandoned h' (ht.act a) hk.withdrawing hl hpres hund.2 hdeletes.2
      · exact ih h' (ht.act a) hk.withdrawing hund.2 hdeletes.2 hb

/-- If the round never publishes behind the withdrawal, the record is covered to the end. -/
theorem covered_play (h : c.Shows p σ) (ht : c.Tidy) (hw : σ.Withdrawing T D) (hc : σ.Covered)
    (hund : Along (Undisturbed p T D) c acts) (hdel : Along (DeletionsSucceed p) c acts)
    (hwrites : Along (NobodyWrites p) c acts) (hb : ¬Sometime (PublishesBehind p T D) c acts) :
    ∃ σ', (c.play acts).Shows p σ' ∧ σ'.Withdrawing T D ∧ σ'.Covered := by
  induction acts generalizing c σ with
  | nil => exact ⟨σ, h, hw, hc⟩
  | cons a acts ih =>
      obtain ⟨hhere, hlater⟩ := not_or.1 hb
      obtain ⟨σ', h', -, hk⟩ := h.withdrawal_act ht hw hund.1
      refine ih h' (ht.act a) hk.withdrawing ?_ hund.2 hdel.2 hwrites.2 hlater
      refine hc.step hw hk ?_ ?_ fun hb => hhere (h.publishesBehind_iff.2 hb)
      · intro id f ha hf hk
        rw [← h.now]
        exact hdel.1 id ha f (mem_flight?_iff.2 ((h.wait? id).trans hf)) hk
      · intro hf hnone
        rw [← h'.record?]
        exact hwrites.1 (h.foreign_iff.2 hf) (h.record?.trans hnone)

/-- The withdrawal of a member that is in the middle of a round of upkeep. -/
theorem InRound.start_withdrawal (hr : c.InRound p T) :
    ∃ σ', (c.start p .withdrawal).Shows p σ' ∧ σ'.Withdrawing T c.nextTask ∧ σ'.Covered := by
  have ht := hr.tidy
  obtain ⟨σ, h⟩ := hr.hasMember.shows
  obtain ⟨x, hx, herrand⟩ := hr.round
  obtain ⟨t, htask, rfl, -, -⟩ := exists_task_of_wait? hx
  have hT : t.id < σ.nextTask := h.nextTask ▸ ht t htask
  obtain ⟨hs, hc⟩ := h.continueWith σ.member.deregister
  have hsnd : (c.continueWith p σ.member.deregister).2 =
      .inl (.call
        (Leased.flight { σ.leased with member := σ.member.deregister.1 } σ.now .retire)) := by
    generalize (c.continueWith p σ.member.deregister).2 = r at hc
    cases hc
    rfl
  generalize hw : Wait.call (Leased.flight _ σ.now .retire) = w at hsnd
  have hwait (i : Nat) :
      ((σ.put σ.member.deregister.1 σ.store).spawn (.routine p w)).wait? i =
        if i = σ.nextTask then some w else σ.wait? i := by
    rw [Scene.wait?_spawn]
    rfl
  refine ⟨(σ.put σ.member.deregister.1 σ.store).spawn (.routine p w), ?_, ?_, ?_⟩
  · have htidy : (c.continueWith p σ.member.deregister).1.Tidy :=
      ht.of_eq (setMember_tasks c p _) (setMember_nextTask c p _)
    have hstart : c.start p .withdrawal =
        ((c.continueWith p σ.member.deregister).1.spawn (.routine p w)).1 := by
      rw [start, h.member?]
      dsimp only [Member.start]
      split
      · next d w' hd =>
          rw [hd] at hsnd ⊢
          cases hsnd
          rfl
      · next d r hd =>
          rw [hd] at hsnd
          cases hsnd
    rw [hstart]
    exact hs.spawn htidy rfl
  · rw [h.nextTask]
    refine ⟨rfl, by omega, Nat.lt_succ_of_lt hT, Nat.lt_succ_self _, fun i y hi => ?_⟩
    rw [hwait] at hi
    split at hi
    · next he =>
        obtain rfl := Option.some.inj hi
        rw [if_neg (by omega), if_pos he, ← hw]
        rfl
    · next he =>
        rw [if_neg he]
        rw [← h.wait?] at hi
        split
        · next hiT =>
            obtain rfl := Option.some.inj (hx.symm.trans (hiT ▸ hi))
            exact herrand
        · next hiT =>
            obtain ⟨u, hu, rfl, hp, hy⟩ := exists_task_of_wait? hi
            exact hr.others u hu hiT hp y hy
  · -- whatever the round has written, the deletion is still to come
    refine fun _ => ⟨σ.nextTask, _, by rw [hwait, if_pos rfl, ← hw], .inl ⟨rfl, ?_⟩⟩
    rintro ⟨v, hv⟩
    cases hv

/-- A withdrawal sets out while a round of upkeep is under way, and both return. The record of the
member is left behind only if the round published it behind the withdrawal, and then it is left
behind, as long as nobody else writes or deletes it. -/
theorem record?_after_withdrawal (hround : c.InRound p T)
    (hund : Along (Undisturbed p T c.nextTask) (c.start p .withdrawal) acts)
    (hdel : Along (DeletionsSucceed p) (c.start p .withdrawal) acts)
    (hwrites : Along (NobodyWrites p) (c.start p .withdrawal) acts)
    (hT : ((c.start p .withdrawal).play acts).wait? p T = none)
    (hD : ((c.start p .withdrawal).play acts).wait? p c.nextTask = none) :
    (((c.start p .withdrawal).play acts).record? p ≠ none →
        Sometime (PublishesBehind p T c.nextTask) (c.start p .withdrawal) acts) ∧
      (Along (NobodyDeletes p) (c.start p .withdrawal) acts →
        Sometime (PublishesBehind p T c.nextTask) (c.start p .withdrawal) acts →
        ((c.start p .withdrawal).play acts).record? p ≠ none) := by
  obtain ⟨σ, h, hw, hc⟩ := hround.start_withdrawal
  have htidy := start_tidy hround.tidy p .withdrawal
  refine ⟨fun hpres => ?_, record?_of_publishesBehind h htidy hw hund⟩
  by_contra hb
  obtain ⟨σ', h', hw', hc'⟩ := covered_play h htidy hw hc hund hdel hwrites hb
  obtain ⟨id, f, hf, -⟩ := hc' (h'.record? ▸ hpres)
  rcases hw'.eq_or_eq_of_call hf with rfl | rfl
  · rw [h'.wait?, hf] at hT
    cases hT
  · rw [h'.wait?, hf] at hD
    cases hD

/-- A member whose publication takes six seconds is publishing itself. -/
def publishing : Cluster :=
  ({} : Cluster).play
    [.join "m" ⟨.new 16 .block, .leased {
        member := { node := Node.new "svc" "10.0.0.1" 9001, settings := {} }, store := 0 }⟩,
      .slow "m" .put ⟨1000, 5000⟩, .start "m" .upkeep, .step 0, .step 0]

/-- It is withdrawn, and its record deleted, before the publication reaches the store; then the
round gives up on the publication. -/
def withdrawnTooEarly : List Act :=
  [.step 1, .step 1, .step 1, .pass 1000, .step 0, .pass 2000, .step 0]

theorem record?_after_withdrawal_publishing :
    publishing.InRound "m" 0 ∧
      Along (Undisturbed "m" 0 1) (publishing.start "m" .withdrawal) withdrawnTooEarly ∧
      (((publishing.start "m" .withdrawal).play withdrawnTooEarly).record? "m" ≠ none →
        Sometime (PublishesBehind "m" 0 1) (publishing.start "m" .withdrawal) withdrawnTooEarly) :=
  ⟨by decide +kernel, by decide +kernel,
    (record?_after_withdrawal (by decide +kernel) (by decide +kernel) (by decide +kernel)
      (by decide +kernel) (by decide +kernel) (by decide +kernel)).1⟩

/-- Every deletion has succeeded and both have returned, but the record is there. -/
theorem record?_left_behind :
    publishing.InRound "m" 0 ∧
      Along (Undisturbed "m" 0 1) (publishing.start "m" .withdrawal) withdrawnTooEarly ∧
      Along (DeletionsSucceed "m") (publishing.start "m" .withdrawal) withdrawnTooEarly ∧
      Along (NobodyWrites "m") (publishing.start "m" .withdrawal) withdrawnTooEarly ∧
      ((publishing.start "m" .withdrawal).play withdrawnTooEarly).wait? "m" 0 = none ∧
      ((publishing.start "m" .withdrawal).play withdrawnTooEarly).wait? "m" 1 = none ∧
      ((publishing.start "m" .withdrawal).play withdrawnTooEarly).record? "m" ≠ none := by
  decide +kernel

end Cluster

end ServiceMesh
