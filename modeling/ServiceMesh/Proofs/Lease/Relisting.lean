import ServiceMesh.Proofs.Lease.Recovery

/-!
A member that registers anew finds itself. The round that registers it reads the topology after its
record was written, so that the snapshot has its node. From then on only an event takes the node out
of the snapshot; and one may come, late, from before the registration.
-/

namespace ServiceMesh

namespace Topology

/-- The events that are applied in one go: those up to the first that changes something. -/
def upToChange (t : Topology) : List Event → List Event
  | [] => []
  | e :: es => if (t.apply e).2 then [e] else e :: (t.apply e).1.upToChange es

end Topology

namespace Member

variable {m : Member} {s : Store}

theorem snapshot_applyEvents (m : Member) (es : List Event) :
    (m.applyEvents es).1.snapshot = m.snapshot.map fun t => t.replay (t.upToChange es) := by
  induction es generalizing m with
  | nil => rw [applyEvents]; simp [Topology.upToChange]
  | cons e es ih =>
      rw [applyEvents]
      split
      · next hs => rw [ih, hs]; rfl
      · next t hs =>
          rw [hs, Option.map_some, Topology.upToChange]
          dsimp only
          split
          · rfl
          · rw [ih]; rfl

theorem Heeds.snapshot {m' : Member} {es : List Event} (h : m.Heeds es m') :
    m'.snapshot = m.snapshot ∨ m' = (m.applyEvents es).1 := by
  cases h with
  | events => exact .inr rfl
  | _ => exact .inl rfl

/-- A round that finds its lease there gives no snapshot up. -/
theorem isSome_snapshot_resume (hm : m.IsSound) {p : CallPoint}
    (hp : (RoundPoint.call p).Fits m) (now : Nat) {r : Except Failure p.Reply}
    (h : p.Expects m s (some r)) (halive : ∀ l, m.lease = some l → s.HasLease l)
    (hs : m.snapshot.isSome = true) : (m.resume now p r).1.snapshot.isSome = true := by
  have hc : ¬m.isCancelled = true := by simp [hm.isCancelled]
  cases p with
  | grant => cases r <;> (first | exact hs | (rw [resume, if_neg hc]; exact hs))
  | publish l => cases r <;> (first | exact hs | (rw [resume, if_neg hc]; exact hs))
  | scan => cases r <;> (first | exact hs | (rw [resume, if_neg hc]; rfl))
  | renew l =>
      have hr := (h.2 r rfl).2 (halive l hp)
      cases r with
      | error f => cases hr
      | ok u =>
          rw [resume, if_neg hc]
          exact hs
  | withdraw => exact hp.elim
  | retire => exact hp.elim

end Member

/-- A call that sets out has not read anything. -/
theorem Leased.Issues.notMem_records? {l : Leased} {now : Nat} {n : Next}
    {r : Wait ⊕ Except Failure Unit} (h : l.Issues now n r) {f : Flight}
    (hf : r.getLeft? = some (.call f)) {records : List (String × List UInt8)} :
    records ∉ f.point.records? f.reply := by
  rw [h.reply_eq_none hf, CallPoint.records?_none]
  rintro ⟨⟩

/-- Only a round of a member that holds a lease reads the topology. -/
theorem CallPoint.lease_ne_none_of_records? {m : Member} {p : CallPoint}
    {r : Option (Except Failure p.Reply)} {records : List (String × List UInt8)}
    (h : p.records? r = some records) (hp : (RoundPoint.call p).Fits m) : m.lease ≠ none := by
  cases p with
  | scan => exact hp
  | _ => cases h

namespace Scene

variable {p : String} {σ σ' : Scene} {a : Cluster.Act} {o o' : Option (Nat × Wait)}

def FindsItself (σ : Scene) : Prop := ∃ t, σ.member.snapshot = some t ∧ t.Lists σ.member.node

/-- The member recovers under a lease that is there, unless it has none, and what its round has read
has the node of the member. -/
structure Relists (σ : Scene) (o : Option (Nat × Wait)) : Prop extends σ.Recovers o where
  own : Node.parseKey σ.member.node.path = some (σ.member.node.service, σ.member.node.id)
  near : σ.member.distance σ.store ≤ 1
  reads : ∀ id f, o = some (id, .call f) → ∀ records ∈ f.point.records? f.reply,
    (Topology.ofScan records).Lists σ.member.node

/-- What is under the keys of other nodes has the identifiers of these keys. -/
def Labelled (σ : Scene) : Prop :=
  ∀ r ∈ σ.store.nodes, r.1 ≠ σ.member.node.path → Node.IsLabelled r

/-- A scan under a lease that is there finds the member. -/
theorem Relists.lists_nodes (h : σ.Relists o) (hl : σ.Labelled) (hlease : σ.member.lease ≠ none) :
    (Topology.ofScan σ.store.nodes).Lists σ.member.node := by
  obtain ⟨l, hl'⟩ := Option.ne_none_iff_exists'.1 hlease
  have halive := (Member.distance_le_one_iff h.upheld.sound).1 h.near l hl'
  have hown : σ.store.get? σ.member.node.path = some σ.member.node.encode := by
    rw [Store.get?, (h.published.holds l (.inl hl') halive).1]
    rfl
  exact Topology.lists_ofScan h.own hown hl

theorem Advances.reads {id : Nat} {x : Wait} {m : Member} {s : Store}
    {r : Wait ⊕ Except Failure Unit} (h : σ.Advances x m s r) (hσ : σ.Relists (some (id, x)))
    (hl : σ.Labelled) {f : Flight} (hf : r.getLeft? = some (.call f)) :
    ∀ records ∈ f.point.records? f.reply, (Topology.ofScan records).Lists σ.member.node := by
  intro records hrecords
  cases h with
  | @acts g hr hdue hin =>
      obtain rfl := Wait.call.inj (Option.some.inj hf)
      rw [records?_perform hrecords]
      exact hσ.lists_nodes hl
        (CallPoint.lease_ne_none_of_records? hrecords hσ.fits)
  | resumes hyields hi => exact absurd hrecords (hi.notMem_records? hf)
  | held n' => cases hf
  | told hi => exact absurd hrecords (hi.notMem_records? hf)

/-- The round goes on: what it has read has the node of the member. -/
theorem Relists.reads_step (h : σ.Relists o) (hl : σ.Labelled) (hs : σ.RoundStep p o a σ' o') :
    ∀ id f, o' = some (id, .call f) → ∀ records ∈ f.point.records? f.reply,
      (Topology.ofScan records).Lists σ'.member.node := by
  cases hs with
  | elsewhere hsp hother =>
      have hm : σ'.member = σ.member := congrArg Leased.member hsp.leased
      rw [hm]
      exact h.reads
  | heeds hm hs =>
      obtain ⟨hnode, -⟩ := hm.keeps
      rw [hnode]
      exact h.reads
  | begins hm hs hc =>
      intro id f ho records hrecords
      obtain ⟨-, he⟩ := Prod.mk.inj (Option.some.inj ho)
      exact absurd hrecords (hc.notMem_records? (congrArg some he))
  | @advances _ id x r ha =>
      intro i f ho
      obtain ⟨y, hy, he⟩ := Option.map_eq_some_iff.1 ho
      obtain ⟨-, rfl⟩ := Prod.mk.inj he
      rw [ha.alike.node]
      exact ha.reads h hl hy
  | drops hm hs => rintro id f ⟨⟩

/-- A snapshot that is there is not given up. -/
theorem Advances.isSome_snapshot {id : Nat} {x : Wait} {m : Member} {s : Store}
    {r : Wait ⊕ Except Failure Unit} (h : σ.Advances x m s r) (hσ : σ.Relists (some (id, x)))
    (hcalm : σ.Calm (some (id, x)) (.step id)) (hs : σ.member.snapshot.isSome = true) :
    m.snapshot.isSome = true := by
  cases h with
  | acts hr hdue hin => exact hs
  | resumes hy hr =>
      have hsound := hσ.upheld.sound
      exact Member.isSome_snapshot_resume hsound hσ.fits σ.now (hσ.expects_reply hcalm hy)
        ((Member.distance_le_one_iff hsound).1 hσ.near) hs
  | held n' => exact hs
  | @told n point r hr =>
      obtain ⟨-, he⟩ := (hσ.upheld.round id _).2 rfl
      cases point with
      | synced => exact hs
      | applied rest => cases he
      | finished => cases he

/-- The round goes on: it swaps in a topology with the node of the member, or leaves the snapshot as
it is. -/
theorem Advances.relists {id : Nat} {x : Wait} {m : Member} {s : Store}
    {r : Wait ⊕ Except Failure Unit} (h : σ.Advances x m s r) (hσ : σ.Relists (some (id, x)))
    (hcalm : σ.Calm (some (id, x)) (.step id)) :
    ((σ.takesUp? (.step id)).isSome = true ∧
        ∃ t, m.snapshot = some t ∧ t.Lists σ.member.node) ∨
      m.snapshot = σ.member.snapshot := by
  obtain ⟨hwait, he⟩ := (hσ.upheld.round id x).2 rfl
  have hc := hσ.upheld.sound.isCancelled
  rcases h.upkeep_cases he hc with ⟨f, records, rfl, hrecords, -, hsnap⟩ | ⟨-, -, hsnap, -⟩
  · refine .inl ⟨by rw [takesUp?_of_call hc hwait, hrecords]; rfl, _, hsnap, ?_⟩
    rw [Flight.scanned?] at hrecords
    split at hrecords
    · exact hσ.reads id f rfl records hrecords
    · cases hrecords
  · right
    rcases hsnap with hsnap | hsnap
    · exact hsnap
    · cases hs : σ.member.snapshot with
      | none => exact hsnap
      | some t =>
          have hkept := h.isSome_snapshot hσ hcalm (by rw [hs]; rfl)
          rw [hsnap] at hkept
          cases hkept

/-- Every step of a member that registers anew swaps in a topology with its node, or applies events
to the snapshot, or leaves it as it is. -/
theorem Relists.snapshot_step (h : σ.Relists o) (hcalm : σ.Calm o a)
    (hs : σ.RoundStep p o a σ' o') :
    ((σ.takesUp? a).isSome = true ∧ σ'.FindsItself) ∨
      σ'.member.snapshot = σ.member.snapshot ∨
      σ'.member = (σ.member.applyEvents (σ.events p a)).1 := by
  cases hs with
  | elsewhere hsp hother => exact .inr (.inl (congrArg (·.member.snapshot) hsp.leased))
  | heeds hm hs => exact .inr hm.snapshot
  | begins hm hs hc => exact .inr (.inl (congrArg Member.snapshot hm))
  | @advances _ id x r ha =>
      rcases ha.relists h hcalm with ⟨htakes, t, ht, hlists⟩ | hsnap
      · exact .inl ⟨htakes, t, ht, ha.alike.node ▸ hlists⟩
      · exact .inr (.inl hsnap)
  | drops hm hs => exact .inr (.inl (congrArg Member.snapshot hm))

end Scene

namespace Cluster

variable {p : String} {c : Cluster} {a : Act} {acts before after : List Act} {σ σ' : Scene}
  {o : Option (Nat × Wait)}

/-- The events that an act applies to the snapshot of the party's member, up to the first that
changes something. -/
def events (p : String) (c : Cluster) : Act → List Event
  | .start q (.apply es) => if q = p then es else []
  | .step id =>
    match c.work? p id with
    | some w => w.events (c.storeOf p)
    | none => []
  | _ => []

def TakesOut (p : String) (c : Cluster) (a : Act) : Prop :=
  ∃ m ∈ c.member? p, (c.act a).member? p ≠ some m ∧
    ∃ t ∈ m.snapshot, ∃ e ∈ t.upToChange (c.events p a), e.TakesOut m.node

/-- The member of the party, asked for its own service, answers with its node among others. -/
def FindsItself (p : String) (c : Cluster) : Prop :=
  ∃ m ∈ c.member? p, ∃ s ∈ (m.getService m.node.service).toOption, m.node ∈ s.nodes

/-- In the run a topology is swapped in that has the node of the party's member. In the end the node
is still found, unless an event has taken it out meanwhile. -/
def ReadsItself (p : String) (c : Cluster) (acts : List Act) : Prop :=
  ∃ pre a post, acts = pre ++ a :: post ∧ ((c.play pre).takesUp? p a).isSome = true ∧
    ((c.play pre).act a).FindsItself p ∧
      ((c.play acts).FindsItself p ∨ Sometime (TakesOut p) ((c.play pre).act a) post)

def Labelled (p : String) (c : Cluster) (_ : Act) : Prop :=
  ∀ m ∈ c.member? p, ∀ r ∈ (c.storeOf p).nodes, r.1 ≠ m.node.path → Node.IsLabelled r

instance (p : String) (c : Cluster) (a : Act) : Decidable (TakesOut p c a) :=
  inferInstanceAs (Decidable (∃ m ∈ c.member? p, _))

instance (p : String) (c : Cluster) : Decidable (FindsItself p c) :=
  inferInstanceAs (Decidable (∃ m ∈ c.member? p, _))

instance (p : String) (c : Cluster) (a : Act) : Decidable (Labelled p c a) :=
  inferInstanceAs (Decidable (∀ m ∈ c.member? p, _))

theorem Shows.events (h : c.Shows p σ) (a : Act) : c.events p a = σ.events p a := by
  cases a with
  | step id =>
      cases hw : σ.work id with
      | none => simp only [Cluster.events, Scene.events, h.work, hw]
      | some w => simp only [Cluster.events, Scene.events, h.work, hw, h.storeOf]
  | start q r => cases r <;> rfl
  | _ => rfl

theorem Shows.findsItself (h : c.Shows p σ) (hf : σ.FindsItself) : c.FindsItself p := by
  obtain ⟨t, ht, hlists⟩ := hf
  have hmem := hlists.mem_nodes
  rw [Topology.nodes] at hmem
  refine ⟨σ.member, h.member?, ?_⟩
  rw [Member.getService, ht]
  split at hmem
  · next s hs =>
      dsimp only
      rw [hs]
      exact ⟨s, rfl, hmem⟩
  · cases hmem

/-- One act of a run in which the member registers anew. -/
theorem Shows.relists_act (h : c.Shows p σ) (ht : c.Tidy) (hσ : σ.Relists o) (ha : Calm p c a)
    (hl : Labelled p c a) :
    ∃ σ' o', (c.act a).Shows p σ' ∧ σ'.member.node = σ.member.node ∧ σ'.Relists o' ∧
      (((c.takesUp? p a).isSome = true ∧ σ'.FindsItself) ∨
        σ'.member.snapshot = σ.member.snapshot ∨
        σ'.member = (σ.member.applyEvents (c.events p a)).1) := by
  obtain ⟨σ', o', h', hnode, hr, hσ', hnear⟩ := h.recovers_act ht hσ.toRecovers ha
  have hlabelled : σ.Labelled := by
    intro r hr hne
    rw [← h.storeOf] at hr
    exact hl σ.member h.member? r hr hne
  refine ⟨σ', o', h', hnode, ⟨hσ', hnode ▸ hσ.own, ?_, hσ.reads_step hlabelled hr⟩, ?_⟩
  · exact Nat.le_trans hnear (Nat.le_trans (Nat.sub_le _ _) hσ.near)
  · rw [h.takesUp?, h.events]
    exact hσ.snapshot_step (h.calm hσ.upheld.round ha) hr

/-- Only an event takes the node out of the snapshot again. -/
theorem Shows.findsItself_play (h : c.Shows p σ) (ht : c.Tidy) (hσ : σ.Relists o)
    (hf : σ.FindsItself) (ha : Along (Calm p) c acts) (hl : Along (Labelled p) c acts) :
    (c.play acts).FindsItself p ∨ Sometime (TakesOut p) c acts := by
  induction acts generalizing c σ o with
  | nil => exact .inl (h.findsItself hf)
  | cons a acts ih =>
      obtain ⟨σ', o', h', hnode, hσ', hsnap⟩ := h.relists_act ht hσ ha.1 hl.1
      by_cases hout : c.TakesOut p a
      · exact .inr (.inl hout)
      refine (ih h' (ht.act a) hσ' ?_ ha.2 hl.2).imp_right .inr
      obtain ⟨t, hs, hlists⟩ := hf
      rcases hsnap with ⟨-, hf'⟩ | hkept | happlied
      · exact hf'
      · exact ⟨t, hkept.trans hs, hnode ▸ hlists⟩
      · by_cases hsame : σ'.member = σ.member
        · exact ⟨t, by rw [hsame, hs], hnode ▸ hlists⟩
        · refine ⟨_, by rw [happlied, Member.snapshot_applyEvents, hs]; rfl, ?_⟩
          rw [hnode]
          refine hlists.replay fun e he htakes =>
            hout ⟨σ.member, h.member?, ?_, t, hs, e, he, htakes⟩
          rw [h'.member?]
          exact fun hn => hsame (Option.some.inj hn)

theorem ReadsItself.cons (h : (c.act a).ReadsItself p acts) : c.ReadsItself p (a :: acts) := by
  obtain ⟨pre, b, post, rfl, h⟩ := h
  exact ⟨a :: pre, b, post, rfl, h⟩

/-- A member without a snapshot gets one with its node in it. -/
theorem Shows.readsItself_play (h : c.Shows p σ) (ht : c.Tidy) (hσ : σ.Relists o)
    (hnone : σ.member.snapshot = none) (ha : Along (Calm p) c acts)
    (hl : Along (Labelled p) c acts)
    (hend : ∃ m ∈ (c.play acts).member? p, m.snapshot.isSome = true) : c.ReadsItself p acts := by
  induction acts generalizing c σ o with
  | nil =>
      obtain ⟨m, hm, hs⟩ := hend
      obtain rfl := Option.some.inj (h.member?.symm.trans hm)
      rw [hnone] at hs
      cases hs
  | cons a acts ih =>
      obtain ⟨σ', o', h', -, hσ', hsnap⟩ := h.relists_act ht hσ ha.1 hl.1
      have hlater (hnone' : σ'.member.snapshot = none) : c.ReadsItself p (a :: acts) :=
        (ih h' (ht.act a) hσ' hnone' ha.2 hl.2 hend).cons
      rcases hsnap with ⟨htakes, hf⟩ | hkept | happlied
      · exact ⟨[], a, acts, rfl, htakes, h'.findsItself hf,
          h'.findsItself_play (ht.act a) hσ' hf ha.2 hl.2⟩
      · exact hlater (hkept.trans hnone)
      · exact hlater (by rw [happlied, Member.snapshot_applyEvents, hnone]; rfl)

/-- The run begins between two rounds, with a member that holds no lease, and brings a round to its
end: the member registers anew. All other records carry the identifiers of their keys. -/
structure Reregisters (p : String) (c : Cluster) (acts : List Act) : Prop where
  resting : c.IsResting p
  unleased : ∀ m ∈ c.member? p, m.lease = none
  labelled : Along (Labelled p) c acts
  done : 0 < roundsDone p c acts

instance (p : String) (c : Cluster) (acts : List Act) : Decidable (Reregisters p c acts) :=
  decidable_of_iff
    (c.IsResting p ∧ (∀ m ∈ c.member? p, m.lease.isNone = true) ∧ Along (Labelled p) c acts ∧
      0 < roundsDone p c acts)
    (by simp only [Option.isNone_iff_eq_none]
        exact ⟨fun h => ⟨h.1, h.2.1, h.2.2.1, h.2.2.2⟩, fun h => ⟨h.1, h.2, h.3, h.4⟩⟩)

theorem Reregisters.readsItself (hre : c.Reregisters p acts) (h : c.Shows p σ) (ht : c.Tidy)
    (hσ : σ.Recovers o) (hmade : σ.member.node.IsMade) (hservice : σ.member.node.service ≠ "")
    (ha : Along (Calm p) c acts) : c.ReadsItself p acts := by
  obtain ⟨rfl, hσ⟩ := hre.resting.recovers h hσ.upheld hσ.published
  have hlease := hre.unleased σ.member h.member?
  have hone : σ.member.distance σ.store = 1 := by rw [Member.distance, hlease]
  obtain ⟨-, τ, o', hτ, -, -, hnear⟩ := h.recovers_play ht hσ ha
  have hdone := hre.done
  obtain ⟨l, -, -, -, hs⟩ := Member.eq_of_distance_eq_zero
    (show τ.member.distance τ.store = 0 by omega)
  have hrelists : σ.Relists none :=
    ⟨hσ, hmade.parseKey_path hservice, Nat.le_of_eq hone, by rintro id f ⟨⟩⟩
  exact h.readsItself_play ht hrelists
    (hσ.upheld.sound.snapshot hlease) ha hre.labelled ⟨τ.member, hτ.member?, hs⟩

/-- Whatever a member has been through: once nothing stands in its way any more, it is well after as
many rounds of upkeep as renewals may fail, and one more, and it stays well. And a round that
registers it anew ends with its node in the snapshot, unless an event takes the node out after the
round has read the topology. -/
theorem isHealthy_after_rounds (hnew : c.New p) (hstore : (c.storeOf p).Reachable)
    (halone : Along (Alone p) c before) (hrest : (c.play before).IsResting p) {m : Member}
    (hm : (c.play before).member? p = some m) (hcalm : Along (Calm p) (c.play before) after) :
    (max 1 m.settings.maxKeepAliveRetry.toNat + 1 ≤ roundsDone p (c.play before) after →
        (c.play (before ++ after)).IsHealthy p) ∧
      ∀ earlier tick, after = earlier ++ tick →
        (c.play (before ++ earlier)).Reregisters p tick → m.node.IsMade → m.node.service ≠ "" →
          (c.play (before ++ earlier)).ReadsItself p tick := by
  obtain ⟨σ, h⟩ := hnew.hasMember.shows
  obtain ⟨ht, σ', o', h', hu, hp⟩ :=
    h.published_play hnew.tidy (hnew.upheld h) (hnew.published h hstore) halone
  obtain rfl := Option.some.inj (h'.member?.symm.trans hm)
  obtain ⟨rfl, hσ⟩ := hrest.recovers h' hu hp
  constructor
  · intro hdone
    obtain ⟨-, τ, o, hτ, -, hτr, hnear⟩ := h'.recovers_play ht hσ hcalm
    have hfar := σ'.member.distance_le σ'.store
    rw [LeaseSettings.limit] at hfar
    rw [play_append]
    exact hτ.isHealthy hτr (by omega)
  · rintro earlier tick rfl hre hmade hservice
    obtain ⟨hearlier, htick⟩ := along_append.1 hcalm
    obtain ⟨ht₁, τ, o, hτ, hnode, hτr, -⟩ := h'.recovers_play ht hσ hearlier
    rw [play_append] at hre ⊢
    exact hre.readsItself hτ ht₁ hτr (hnode ▸ hmade) (hnode ▸ hservice) htick

/-- A member that gives its lease up with the first renewal that fails. -/
def impatient (capacity : Nat) : Cluster :=
  ({} : Cluster).act (.join "m" ⟨.new capacity .block, .leased {
    member := { node := unheardNode, settings := { maxKeepAliveRetry := 1 } }
    store := 0 }⟩)

def leaseLost : List Act :=
  .start "m" .upkeep :: List.replicate 10 (.step 0) ++ [.use 0 (.expire 1)]

def lossNoticed : List Act := .start "m" .upkeep :: List.replicate 2 (.step 1)

def registeredAgain : List Act := .start "m" .upkeep :: List.replicate 10 (.step 2)

theorem isHealthy_after_rounds_leaseLost :
    Along (Alone "m") (impatient 16) leaseLost ∧
      Along (Calm "m") ((impatient 16).play leaseLost) (lossNoticed ++ registeredAgain) ∧
      ((impatient 16).play (leaseLost ++ lossNoticed)).Reregisters "m" registeredAgain ∧
      ((impatient 16).play (leaseLost ++ (lossNoticed ++ registeredAgain))).IsHealthy "m" ∧
      ((impatient 16).play (leaseLost ++ lossNoticed)).ReadsItself "m" registeredAgain := by
  have halone : Along (Alone "m") (impatient 16) leaseLost := by decide +kernel
  have hcalm : Along (Calm "m") ((impatient 16).play leaseLost)
      (lossNoticed ++ registeredAgain) := by decide +kernel
  have hre : ((impatient 16).play (leaseLost ++ lossNoticed)).Reregisters "m" registeredAgain := by
    decide +kernel
  have hmember : (((impatient 16).play leaseLost).member? "m").map (fun m => (m.node, m.settings)) =
      some (unheardNode, { maxKeepAliveRetry := 1 }) := by decide +kernel
  obtain ⟨m, hm, he⟩ := Option.map_eq_some_iff.1 hmember
  obtain ⟨hnode, hset⟩ := Prod.mk.inj he
  obtain ⟨hwell, hreads⟩ := isHealthy_after_rounds (new_join rfl rfl _) (reachable_join rfl _)
    halone (by decide +kernel) hm hcalm
  refine ⟨halone, hcalm, hre, hwell ?_, hreads _ _ rfl hre ?_ ?_⟩
  · rw [hset]
    decide +kernel
  · rw [hnode]
    exact Node.isMade_new _ _ _
  · rw [hnode]
    decide

def neighbour : Node := Node.new "other" "10.0.0.2" 9002

/-- The loop that follows the store waits at a full inbox when the lease of the member ends, so that
the deletion of its record is still to come when a round finds the lease gone. -/
def lossUnread : List Act :=
  [.register "m", .step 1, .step 1, .start "m" .upkeep] ++ List.replicate 9 (.step 2) ++
    [.useBus "m" .subscribe, .step 1, .step 1, .use 0 (.put neighbour.path neighbour.encode none),
      .step 1, .use 0 (.expire 1), .start "m" .upkeep, .step 3, .step 3]

/-- The next round registers the member again and reads the topology. Before it has ended the loop
comes to the deletion. -/
def registeredUnread : List Act :=
  .start "m" .upkeep :: List.replicate 6 (.step 4) ++
    [.useBus "m" (.drain 0 1), .step 1, .step 1, .useBus "m" (.drain 0 1), .step 4, .step 4,
      .step 4]

/-- The round has registered the member and all is calm, but the member does not find itself. -/
theorem not_findsItself_overtaken :
    (impatient 1).New "m" ∧ ((impatient 1).storeOf "m").Reachable ∧
      Along (Alone "m") (impatient 1) lossUnread ∧
      Along (Calm "m") ((impatient 1).play lossUnread) registeredUnread ∧
      ((impatient 1).play lossUnread).Reregisters "m" registeredUnread ∧
      unheardNode.IsMade ∧ unheardNode.service ≠ "" ∧
      (((impatient 1).play (lossUnread ++ registeredUnread)).member? "m").map (·.node) =
        some unheardNode ∧
      ((impatient 1).play (lossUnread ++ registeredUnread)).IsHealthy "m" ∧
      ¬((impatient 1).play (lossUnread ++ registeredUnread)).FindsItself "m" := by
  refine ⟨new_join rfl rfl _, reachable_join rfl _, ?_⟩
  decide +kernel

end Cluster

end ServiceMesh
