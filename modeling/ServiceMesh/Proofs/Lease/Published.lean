import ServiceMesh.Proofs.Cluster.Stores
import ServiceMesh.Proofs.Lease.Rounds
import ServiceMesh.Proofs.Lease.Snapshot
import ServiceMesh.Proofs.Lease.Withdrawal

/-!
Published while leased. A round that registers the member may be given up by its caller at any
point, and the store may have carried out the call or not; so leases and records of earlier attempts
may be left over. But the lease that the member takes over is the one that its record was written
under last, and from then on the record stays for as long as this lease does.
-/

namespace ServiceMesh

/-- The call publishes the record under the lease, and the store has done so. -/
def Flight.HasPublished (f : Flight) (l : LeaseId) : Prop :=
  f.point = .publish l ∧ ∃ r, f.reply = some (.ok r)

namespace CallPoint

variable {m : Member} {s : Store} {p : CallPoint}

/-- A publication that succeeds leaves the record behind, bound to its lease. -/
theorem holds_perform (hs : s.Consistent) {l : LeaseId} (hp : p = .publish l) {r : p.Reply}
    (h : (p.perform m s).2 = .ok r) : (p.perform m s).1.Holds m.node.path m.node.encode l := by
  subst hp
  intro _
  rw [perform] at h ⊢
  split at h
  · next hput =>
      refine ⟨?_, (hs.mem_boundKeys_put hput _ _).2 (.inl ⟨rfl, rfl⟩)⟩
      rw [(Store.put_eq_ok hput).1, KeyMap.get?_insert_self]
  · cases h

/-- A round of a member that holds a lease reads from the store only. -/
theorem perform_of_lease (hp : (RoundPoint.call p).Fits m) (hl : m.lease ≠ none) :
    (p.perform m s).1 = s := by
  cases p with
  | grant => exact absurd hp hl
  | publish lease => exact absurd hp hl
  | scan => rfl
  | renew lease => rfl
  | withdraw => exact hp.elim
  | retire => exact hp.elim

end CallPoint

namespace Member

/-- A lease that a member has after an answer it had before, or it has published under it. -/
theorem lease_resume {m : Member} {p : CallPoint} (hm : m.IsSound)
    (hp : (RoundPoint.call p).Fits m) (now : Nat) {r : Except Failure p.Reply} {l : LeaseId}
    (h : (m.resume now p r).1.lease = some l) :
    m.lease = some l ∨ (p = .publish l ∧ ∃ u, r = .ok u) := by
  have hc : ¬m.isCancelled = true := by simp [hm.isCancelled]
  cases p with
  | grant =>
      cases r with
      | error f => exact .inl h
      | ok lease =>
          rw [resume, if_neg hc] at h
          exact .inl h
  | publish lease =>
      cases r with
      | error f => exact .inl h
      | ok u =>
          rw [resume, if_neg hc] at h
          obtain rfl := Option.some.inj h
          exact .inr ⟨rfl, u, rfl⟩
  | scan =>
      cases r with
      | error f => exact .inl h
      | ok records =>
          rw [resume, if_neg hc] at h
          exact .inl h
  | renew lease =>
      cases r with
      | error f =>
          rw [resume, if_neg hc] at h
          rw [(renewalFailed_eq hm.failures).2] at h
          split at h
          · cases h
          · exact .inl h
      | ok u =>
          rw [resume, if_neg hc] at h
          exact .inl h
  | withdraw => exact hp.elim
  | retire => exact hp.elim

end Member

namespace Scene

variable {p : String} {σ σ' : Scene} {a : Cluster.Act} {o o' : Option (Nat × Wait)}

/-- The member is at the lease: it holds it, or is registering under it. -/
def IsAt (σ : Scene) (o : Option (Nat × Wait)) (l : LeaseId) : Prop :=
  σ.member.lease = some l ∨ ∃ id f, o = some (id, .call f) ∧ f.point = .publish l

def HasPublished (σ : Scene) (o : Option (Nat × Wait)) (l : LeaseId) : Prop :=
  σ.member.lease = some l ∨ ∃ id f, o = some (id, .call f) ∧ f.HasPublished l

theorem HasPublished.isAt {l : LeaseId} (h : σ.HasPublished o l) : σ.IsAt o l :=
  h.imp_right fun ⟨id, f, ho, hp⟩ => ⟨id, f, ho, hp.1⟩

/-- No key of the store is bound to another lease than that of its record, and the record of the
member goes with the lease that it was published under. -/
structure Published (σ : Scene) (o : Option (Nat × Wait)) : Prop where
  consistent : σ.store.Consistent
  holds : ∀ l, σ.HasPublished o l → σ.store.Holds σ.member.node.path σ.member.node.encode l

/-- A call that sets out has not published anything. -/
theorem hasPublished_of_issues {k : Leased} {now : Nat} {n : Next}
    {r : Wait ⊕ Except Failure Unit} (h : k.Issues now n r) {l : LeaseId} {id : Nat} :
    ¬∃ i f, r.getLeft?.map (Prod.mk id) = some (i, .call f) ∧ f.HasPublished l := by
  rintro ⟨i, f, ho, -, r', hr⟩
  obtain ⟨y, hy, he⟩ := Option.map_eq_some_iff.1 ho
  obtain ⟨-, rfl⟩ := Prod.mk.inj he
  cases (h.reply_eq_none hy).symm.trans hr

/-- What the round has published after it went on. -/
theorem Advances.published {id : Nat} {x : Wait} {m : Member} {s : Store}
    {r : Wait ⊕ Except Failure Unit} (h : σ.Advances x m s r) (hu : σ.Upheld (some (id, x)))
    (hp : σ.Published (some (id, x))) {l : LeaseId}
    (hl : m.lease = some l ∨
      ∃ i f, r.getLeft?.map (Prod.mk id) = some (i, .call f) ∧ f.HasPublished l) :
    s.Holds σ.member.node.path σ.member.node.encode l := by
  cases h with
  | @acts f hr hdue hin =>
      rcases hl with hl | ⟨i, g, hg, hpub⟩
      · have hfits : (RoundPoint.call f.point).Fits σ.member := hu.fits _ rfl _ rfl
        rw [CallPoint.perform_of_lease hfits (by rw [hl]; exact Option.some_ne_none l)]
        exact hp.holds l (.inl hl)
      · obtain ⟨-, he⟩ := Prod.mk.inj (Option.some.inj hg)
        obtain rfl := Wait.call.inj he
        obtain ⟨hpoint, u, hu⟩ := hpub
        exact CallPoint.holds_perform hp.consistent hpoint (Option.some.inj hu)
  | @resumes f reply r hy hr =>
      rcases hl with hl | hl
      · have hfits : (RoundPoint.call f.point).Fits σ.member := hu.fits _ rfl _ rfl
        rcases Member.lease_resume hu.sound hfits _ hl with hl | ⟨hpoint, u, rfl⟩
        · exact hp.holds l (.inl hl)
        · exact hp.holds l (.inr ⟨id, f, rfl, hpoint, u, hy.reply_eq⟩)
      · exact absurd hl (hasPublished_of_issues hr)
  | held n' =>
      rcases hl with hl | ⟨i, g, hg, -⟩
      · exact hp.holds l (.inl hl)
      · cases hg
  | @told n point r hr =>
      rcases hl with hl | hl
      · obtain ⟨-, he⟩ := (hu.round id _).2 rfl
        cases point with
        | synced => exact hp.holds l (.inl hl)
        | applied rest => cases he
        | finished => cases he
      · exact absurd hl (hasPublished_of_issues hr)

/-- Every step keeps the record published, if others leave it alone and the store does not give the
number of the lease out again. -/
theorem Published.step (hp : σ.Published o) (hu : σ.Upheld o) (h : σ.RoundStep p o a σ' o')
    (hstore : (σ.store.Serves σ'.store ∧ ((∀ id, a = .step id → σ.work id = none) →
        σ'.store.records.get? σ.member.node.path = σ.store.records.get? σ.member.node.path)) ∨
      ∃ l, σ'.store = σ.store.expire l)
    (hfresh : ∀ l, σ.IsAt o l → l = σ.store.nextLease → σ'.store.nextLease = σ.store.nextLease) :
    σ'.Published o' := by
  refine ⟨?_, ?_⟩
  · rcases hstore with ⟨hs, -⟩ | ⟨id, he⟩
    · exact hs.consistent hp.consistent
    · rw [he]
      exact hp.consistent.expire id
  cases h with
  | elsewhere hsp hother =>
      have hm : σ'.member = σ.member := congrArg Leased.member hsp.leased
      intro l hl
      rw [HasPublished, hm] at hl
      rw [hm]
      rcases hstore with ⟨hs, hk⟩ | ⟨id, he⟩
      · exact hs.holds hp.consistent (hp.holds l hl) (hk hother)
          (hfresh l (HasPublished.isAt hl))
      · rw [he]
        exact hp.consistent.holds_expire (hp.holds l hl) id
  | heeds hm hs =>
      obtain ⟨hnode, -, -, hlease, -, -⟩ := hm.keeps
      intro l hl
      rw [HasPublished, hlease] at hl
      rw [hs, hnode]
      exact hp.holds l hl
  | begins hm hs hc =>
      intro l hl
      rw [HasPublished, hm] at hl
      rw [hs, hm]
      rcases hl with hl | hl
      · exact hp.holds l (.inl hl)
      · exact absurd hl (hasPublished_of_issues hc)
  | advances ha =>
      intro l hl
      have hnode := ha.alike.node
      rw [hnode]
      exact ha.published hu hp hl
  | drops hm hs =>
      intro l hl
      rw [HasPublished, hm] at hl
      rw [hs, hm]
      rcases hl with hl | ⟨i, f, hf, -⟩
      · exact hp.holds l (.inl hl)
      · cases hf

end Scene

namespace Cluster

variable {p : String} {c : Cluster} {a : Act} {acts : List Act} {σ : Scene}
  {o : Option (Nat × Wait)}

def IsAt (p : String) (c : Cluster) (l : LeaseId) : Prop :=
  (∃ m ∈ c.member? p, m.lease = some l) ∨
    ∃ t ∈ c.tasks, t.work.party = p ∧
      ∃ x ∈ t.work.wait?, x.roundPoint? = some (.call (.publish l))

def stored? (p : String) (c : Cluster) : Option Record :=
  (c.leased? p).bind fun l => (c.store l.store).records.get? l.member.node.path

/-- Nobody withdraws the member of the party, its rounds do not overlap, and nobody else writes or
deletes its record. Leases may end at any time, but the store does not give out once more the
number of the lease that the member is at. -/
structure Alone (p : String) (c : Cluster) (a : Act) : Prop where
  stays : c.Stays p a
  kept : a ≠ .start p .withdrawal
  oneRound : (c.act a).OneRound p
  untouched : c.Foreign p a → a.expires = false → (c.act a).stored? p = c.stored? p
  fresh : c.IsAt p (c.storeOf p).nextLease →
    ((c.act a).storeOf p).nextLease = (c.storeOf p).nextLease

instance (p : String) (c : Cluster) (l : LeaseId) : Decidable (c.IsAt p l) :=
  inferInstanceAs (Decidable (_ ∨ _))

instance (p : String) (a : Act) : Decidable (a = .start p .withdrawal) :=
  match a with
  | .start q .withdrawal => decidable_of_iff (q = p) (by simp)
  | .start q .upkeep => isFalse (by simp)
  | .start q (.apply es) => isFalse (by simp)
  | .join q P => isFalse (by simp)
  | .step id => isFalse (by simp)
  | .pass ms => isFalse (by simp)
  | .use i op => isFalse (by simp)
  | .slow q k d => isFalse (by simp)
  | .register q => isFalse (by simp)
  | .drop id => isFalse (by simp)
  | .feedIn q what => isFalse (by simp)
  | .useBus q op => isFalse (by simp)

instance (p : String) (c : Cluster) (a : Act) : Decidable (Alone p c a) :=
  decidable_of_iff
    (c.Stays p a ∧ a ≠ .start p .withdrawal ∧ (c.act a).OneRound p ∧
      (c.Foreign p a → a.expires = false → (c.act a).stored? p = c.stored? p) ∧
      (c.IsAt p (c.storeOf p).nextLease →
        ((c.act a).storeOf p).nextLease = (c.storeOf p).nextLease))
    ⟨fun h => ⟨h.1, h.2.1, h.2.2.1, h.2.2.2.1, h.2.2.2.2⟩, fun h => ⟨h.1, h.2, h.3, h.4, h.5⟩⟩

theorem Shows.stored? (h : c.Shows p σ) :
    c.stored? p = σ.store.records.get? σ.member.node.path := by
  rw [Cluster.stored?, h.leased, Option.bind_some, h.store]
  rfl

theorem Shows.isAt (h : c.Shows p σ) (hu : σ.InRound o) {l : LeaseId} (hl : σ.IsAt o l) :
    c.IsAt p l := by
  rcases hl with hl | ⟨id, f, rfl, hf⟩
  · exact .inl ⟨_, h.member?, hl⟩
  · obtain ⟨t, ht, -, hp, hx⟩ := exists_task_of_wait? ((h.wait? id).trans ((hu id _).2 rfl).1)
    exact .inr ⟨t, ht, hp, _, hx, by rw [← hf]; rfl⟩

theorem Shows.serves_act (h : c.Shows p σ) {σ' : Scene} (h' : (c.act a).Shows p σ')
    (hs : σ'.leased.store = σ.leased.store) (ha : a.expires = false) :
    σ.store.Serves σ'.store := by
  rw [← h.store, ← h'.store, hs]
  exact Cluster.serves_act c ha _

/-- One act of a run that leaves the member alone. -/
theorem Shows.published_act (h : c.Shows p σ) (ht : c.Tidy) (hu : σ.Upheld o)
    (hp : σ.Published o) (ha : Alone p c a) :
    ∃ σ' o', (c.act a).Shows p σ' ∧ σ.Step p a σ' ∧ σ.RoundStep p o a σ' o' ∧ σ'.Upheld o' ∧
      σ'.Published o' := by
  obtain ⟨σ', h', hs⟩ := h.act ht ha.stays
  obtain ⟨o', hr, hu'⟩ := hu.step (h.isTidy ht) hs (ha.oneRound.of_shows h') ha.kept
  have hstore := hs.leased_store
  have hnode := hs.node
  refine ⟨σ', o', h', hs, hr, hu', hp.step hu hr ?_ fun l hl he => ?_⟩
  · cases hx : a.expires with
    | false =>
        refine .inl ⟨h.serves_act h' hstore hx, fun hf => ?_⟩
        have hentry := ha.untouched (h.foreign_iff.2 hf) hx
        rwa [h.stored?, h'.stored?, hnode] at hentry
    | true =>
        rw [← h.store, ← h'.store, hstore]
        rcases store_act_of_expires c hx σ.leased.store with he | he
        · exact .inl ⟨.inl he, fun _ => by rw [he]⟩
        · exact .inr he
  · have hfresh := ha.fresh
    rw [h.storeOf, h'.storeOf, ← he] at hfresh
    exact he ▸ hfresh (h.isAt hu.round hl)

theorem Shows.published_play (h : c.Shows p σ) (ht : c.Tidy) (hu : σ.Upheld o)
    (hp : σ.Published o) (ha : Along (Alone p) c acts) :
    (c.play acts).Tidy ∧
      ∃ σ' o', (c.play acts).Shows p σ' ∧ σ'.Upheld o' ∧ σ'.Published o' := by
  induction acts generalizing c σ o with
  | nil => exact ⟨ht, σ, o, h, hu, hp⟩
  | cons a acts ih =>
      obtain ⟨σ', o', h', -, -, hu', hp'⟩ := h.published_act ht hu hp ha.1
      exact ih h' (ht.act a) hu' hp' ha.2

theorem New.published (hn : c.New p) (h : c.Shows p σ) (hs : (c.storeOf p).Reachable) :
    σ.Published none := by
  rw [h.storeOf] at hs
  refine ⟨hs.consistent, fun l hl => ?_⟩
  rw [Scene.HasPublished, hn.member _ h.member?] at hl
  rcases hl with ⟨⟨⟩⟩ | ⟨id, f, ⟨⟩, -⟩

/-- While the member holds a lease that is there, its record is in the store and bound to this lease
alone, and the end of no other lease takes it away. -/
theorem record_of_lease (hnew : c.New p) (hstore : (c.storeOf p).Reachable)
    (halone : Along (Alone p) c acts) {m : Member} (hm : (c.play acts).member? p = some m)
    {l : LeaseId} (hl : m.lease = some l) (hthere : ((c.play acts).storeOf p).HasLease l) :
    ((c.play acts).storeOf p).records.get? m.node.path = some ⟨m.node.encode, some l⟩ ∧
      (∀ l', m.node.path ∈ ((c.play acts).storeOf p).boundKeys l' ↔ l' = l) ∧
      ∀ l', l' ≠ l → (((c.play acts).storeOf p).expire l').records.get? m.node.path =
        some ⟨m.node.encode, some l⟩ := by
  obtain ⟨σ, h⟩ := hnew.hasMember.shows
  obtain ⟨-, σ', o', h', -, hp⟩ :=
    h.published_play hnew.tidy (hnew.upheld h) (hnew.published h hstore) halone
  obtain rfl := Option.some.inj (h'.member?.symm.trans hm)
  rw [h'.storeOf] at hthere ⊢
  obtain ⟨hrec, hbound⟩ := hp.holds l (.inl hl) hthere
  refine ⟨hrec, fun l' => ⟨fun hm => ?_, by rintro rfl; exact hbound⟩,
    fun l' hne => hp.consistent.get?_records_expire hrec hne⟩
  obtain ⟨v, hv⟩ := hp.consistent _ _ hm
  cases hrec.symm.trans hv
  rfl

/-- Whoever joins first finds an empty store. -/
theorem reachable_join {l : Leased} (hl : l.store = 0) (b : Bus) :
    ((({} : Cluster).act (.join p ⟨b, .leased l⟩)).storeOf p).Reachable := by
  have hleased : (({} : Cluster).act (.join p ⟨b, .leased l⟩)).leased? p = some l := by
    rw [act, leased?, party?_setParty, if_pos rfl]
  rw [storeOf, hleased]
  dsimp only
  rw [hl]
  exact .empty

def unheardNode : Node := Node.new "svc" "10.0.0.1" 9001

/-- A member whose first publication takes too long: the store has written the record under the
first lease when the member gives up. -/
def unheard : Cluster :=
  ({} : Cluster).act
    (.join "m" ⟨.new 16 .block, .leased {
      member := { node := unheardNode, settings := {} }
      store := 0
      delays := [(.put, ⟨0, 5000⟩)] }⟩)

/-- It registers again under a second lease, and then the first one ends. -/
def registeredTwice : List Act :=
  [.start "m" .upkeep, .step 0, .step 0, .step 0, .pass 3000, .step 0, .slow "m" .put ⟨0, 0⟩,
    .start "m" .upkeep, .step 1, .step 1, .step 1, .step 1, .use 0 (.expire 1)]

theorem record_of_lease_registeredTwice :
    Along (Alone "m") unheard registeredTwice ∧
      (((unheard.play registeredTwice).member? "m").map fun m => (m.node, m.lease)) =
        some (unheardNode, some 2) ∧
      ((unheard.play registeredTwice).storeOf "m").records.get? unheardNode.path =
        some ⟨unheardNode.encode, some 2⟩ := by
  have halone : Along (Alone "m") unheard registeredTwice := by decide +kernel
  have hlease : (((unheard.play registeredTwice).member? "m").map fun m => (m.node, m.lease)) =
      some (unheardNode, some 2) := by decide +kernel
  refine ⟨halone, hlease, ?_⟩
  obtain ⟨m, hm, he⟩ := Option.map_eq_some_iff.1 hlease
  obtain ⟨hnode, hl⟩ := Prod.mk.inj he
  rw [← hnode]
  exact (record_of_lease (new_join rfl rfl _) (reachable_join rfl _) halone hm hl
    (by decide +kernel)).1

end Cluster

end ServiceMesh
