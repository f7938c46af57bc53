import ServiceMesh.Proofs.Lease.Writers

/-!
The snapshot of a registered member at every moment. Whatever the order in which its two writers
come, the snapshot is the last reading with the events applied to it that the loop has taken from
its stream since.
-/

namespace ServiceMesh

namespace Scene

def followed? (σ : Scene) (w : Nat) : Option Nat := (σ.work w).bind Work.position?

def takesUp? (σ : Scene) (a : Cluster.Act) : Option (List (String × List UInt8)) :=
  a.step?.bind fun id =>
    match σ.wait? id with
    | some (.call f) => if σ.member.isCancelled then none else f.scanned? σ.now
    | _ => none

/-- A registered member follows its store with one task, and its other tasks see to upkeep. -/
structure Runs (p : String) (w : Nat) (σ : Scene) : Prop where
  running : σ.member.isCancelled = false
  started : σ.member.isStarted = true
  logged : σ.store.Logged
  lt : w < σ.nextTask
  loop : ∃ loop, σ.work w = some (.watch p loop) ∧ loop.IsSound σ.store
  others : ∀ id work, σ.work id = some work → id ≠ w → work.IsUpkeep

/-- The snapshot of the member is the last reading, with the events applied to it that the task has
followed since. -/
structure Follows (p : String) (w : Nat) (R : Option Reading) (σ : Scene) : Prop extends
    Runs p w σ where
  /-- Events are applied to the reading as long as there is a stream. -/
  fits : ∀ r ∈ R, r.Fits (σ.followed? w)
  sound : ∀ r ∈ R, Topology.WellFormedScan r.records
  /-- The snapshot may be given up, but it never becomes another one. -/
  snapshot : ∀ r ∈ R, ∀ t ∈ σ.member.snapshot, t = r.topology σ.store (σ.followed? w)
  /-- Where there is a mark there is a reading behind it. -/
  synced : ∀ at_ ∈ σ.member.lastSync, R ≠ none

variable {p : String} {w : Nat} {R : Option Reading} {σ σ' : Scene} {a : Cluster.Act}

theorem takesUp?_eq_none
    (h : ∀ id f, a = .step id → σ.wait? id = some (.call f) → f.scanned? σ.now = none) :
    σ.takesUp? a = none := by
  cases a with
  | step id =>
      rw [takesUp?, Cluster.Act.step?, Option.bind_some]
      split
      · next f hf => rw [h id f rfl hf, ite_self]
      · rfl
  | _ => rfl

theorem takesUp?_of_call (hc : σ.member.isCancelled = false) {id : Nat} {f : Flight}
    (hf : σ.wait? id = some (.call f)) : σ.takesUp? (.step id) = f.scanned? σ.now := by
  rw [takesUp?, Cluster.Act.step?, Option.bind_some, hf]
  simp [hc]

theorem followed?_setWork_of_ne {id : Nat} (hid : id ≠ w) (m : Member) (s : Store)
    (work : Option Work) : ((σ.put m s).setWork id work).followed? w = σ.followed? w := by
  rw [followed?, setWork_work, if_neg (Ne.symm hid)]
  rfl

theorem followed?_setWork_self (σ : Scene) (w : Nat) (m : Member) (s : Store) (q : String)
    (loop : WatchLoop) :
    ((σ.put m s).setWork w (some (.watch q loop))).followed? w = loop.position? := by
  rw [followed?, setWork_work, if_pos rfl]
  rfl

/-! ### The tasks -/

namespace Runs

theorem followed?_le (h : σ.Runs p w) : ∀ j ∈ σ.followed? w, j ≤ σ.store.published.size := by
  intro j hj
  obtain ⟨loop, hw, hs⟩ := h.loop
  rw [followed?, hw] at hj
  obtain ⟨f, hf, rfl⟩ := Option.map_eq_some_iff.1 hj
  exact (hs.feed f hf).2

theorem steps (h : σ.Runs p w) {id : Nat} {work : Work} {work' : Option Work} {m : Member}
    {s : Store} (hw : σ.work id = some work) (hg : σ.Goes p work m s work')
    (hscan : Topology.WellFormedScan σ.store.nodes) :
    ((σ.put m s).setWork id work').Runs p w := by
  have halike := hg.alike
  obtain ⟨loop, hloop, hsound⟩ := h.loop
  refine ⟨halike.isCancelled.trans h.running, halike.isStarted.trans h.started,
    hg.grows.logged h.logged, h.lt, ?_, fun i v hv hi => ?_⟩
  · rw [setWork_work]
    split
    · next hid =>
        obtain rfl := hid
        obtain rfl := Option.some.inj (hw.symm.trans hloop)
        obtain ⟨rfl, loop', rfl, hsound', -⟩ := hg.moves hsound h.running
        exact ⟨loop', rfl, hsound'⟩
    · exact ⟨loop, hloop, hsound.mono hg.grows⟩
  · rw [setWork_work] at hv
    split at hv
    · next hid =>
        obtain rfl := hid
        exact hg.isUpkeep (h.others i work hw hi) hscan v hv
    · exact h.others i v hv hi

theorem spawn (h : σ.Runs p w) {work : Work} (hu : work.IsUpkeep) : (σ.spawn work).Runs p w := by
  have hlt := h.lt
  refine ⟨h.running, h.started, h.logged, Nat.lt_succ_of_lt hlt, ?_, fun i v hv hi => ?_⟩
  · rw [spawn_work, if_neg (by omega)]
    exact h.loop
  · rw [spawn_work] at hv
    split at hv
    · obtain rfl := Option.some.inj hv
      exact hu
    · exact h.others i v hv hi

theorem feedIn (h : σ.Runs p w) {what : Injection} (hwhat : ∀ es, what ≠ .batch es) :
    (σ.feedIn what).Runs p w := by
  obtain ⟨loop, hloop, hsound⟩ := h.loop
  refine ⟨h.running, h.started, h.logged, h.lt, ⟨_, ?_, hsound.inject hwhat⟩,
    fun i v hv hi => ?_⟩
  · rw [feedIn_work, hloop]
    rfl
  · rw [feedIn_work] at hv
    obtain ⟨v', hv', rfl⟩ := Option.map_eq_some_iff.1 hv
    have hu := h.others i v' hv' hi
    cases v' with
    | watch q loop' => exact absurd rfl (hu.not_watch q loop')
    | _ => exact hu

/-- Whatever happens, short of a withdrawal, the member goes on to follow its store. -/
theorem step (h : σ.Runs p w) (hs : σ.Step p a σ') (happly : ∀ es, a ≠ .start p (.apply es))
    (hbatch : ∀ es, a ≠ .feedIn p (.batch es)) (hdrop : a ≠ .drop w)
    (hrunning : σ'.member.isCancelled = false)
    (hwf : ∀ e ∈ σ.store.published.toList, e.WellFormed) : σ'.Runs p w := by
  cases hs with
  | elsewhere hsp hother =>
      have hmember : σ'.member = σ.member := congrArg Leased.member hsp.leased
      obtain ⟨loop, hloop, hsound⟩ := h.loop
      exact ⟨hrunning, hmember ▸ h.started, hsp.grows.logged h.logged,
        Nat.lt_of_lt_of_le h.lt hsp.nextTask, ⟨loop, hsp.work ▸ hloop, hsound.mono hsp.grows⟩,
        hsp.work ▸ h.others⟩
  | waits hw hidle => exact h
  | steps hw hg => exact h.steps hw hg (Topology.wellFormedScan_nodes h.logged hwf)
  | slows k d => exact ⟨h.running, h.started, h.logged, h.lt, h.loop, h.others⟩
  | @starts r x hc =>
      obtain ⟨rfl, hu⟩ := isUpkeep_of_start p (fun es he => happly es (he ▸ rfl)) hrunning hc
      exact h.spawn (hu x rfl)
  | @startsAndEnds r res hc =>
      obtain ⟨rfl, -⟩ := isUpkeep_of_start p (fun es he => happly es (he ▸ rfl)) hrunning hc
      exact ⟨h.running, h.started, h.logged, Nat.lt_succ_of_lt h.lt, h.loop, h.others⟩
  | registers hc hstarted => cases h.started.symm.trans hstarted
  | drops id =>
      have hid : w ≠ id := fun he => hdrop (he ▸ rfl)
      refine ⟨h.running, h.started, h.logged, h.lt, ?_, fun i v hv hi => ?_⟩
      · rw [setWork_work, if_neg hid]
        exact h.loop
      · rw [setWork_work] at hv
        split at hv
        · cases hv
        · exact h.others i v hv hi
  | feedsIn what => exact h.feedIn fun es he => hbatch es (he ▸ rfl)

end Runs

/-! ### The snapshot -/

namespace Follows

/-- As long as the loop stays where it is, the reading stays what it was. -/
theorem observe_self (h : σ.Follows p w R) (hf : σ'.followed? w = σ.followed? w) :
    Reading.observe R (σ.followed? w) (σ'.followed? w) none = R := by
  rw [hf, Reading.observe, if_neg]
  · cases R with
    | none => rfl
    | some r => rw [Option.map_some, (h.fits r rfl).follow]
  · cases σ.followed? w <;> simp

/-- The loop stays where it is, and of the member at most the snapshot and the mark of the last
reading are given up. -/
theorem of_followed?_eq (h : σ.Follows p w R) (h' : σ'.Runs p w) (hg : σ.store.Grows σ'.store)
    (hf : σ'.followed? w = σ.followed? w)
    (hsnap : σ'.member.snapshot = σ.member.snapshot ∨ σ'.member.snapshot = none)
    (hsync : σ'.member.lastSync = σ.member.lastSync ∨ σ'.member.lastSync = none) :
    σ'.Follows p w (Reading.observe R (σ.followed? w) (σ'.followed? w) none) := by
  rw [h.observe_self hf]
  refine ⟨h', ?_, h.sound, ?_, ?_⟩
  · rw [hf]
    exact h.fits
  · intro r hr t ht
    rw [hf, Reading.topology_of_grows hg h.followed?_le]
    rcases hsnap with hsnap | hsnap
    · exact h.snapshot r hr t (hsnap ▸ ht)
    · rw [hsnap] at ht
      cases ht
  · intro at_ hat
    rcases hsync with hsync | hsync
    · exact h.synced at_ (hsync ▸ hat)
    · rw [hsync] at hat
      cases hat

/-- A round of upkeep swaps in what it has read. -/
theorem of_takesUp (h' : σ'.Runs p w) {records : List (String × List UInt8)}
    (hrecords : Topology.WellFormedScan records)
    (hsnap : σ'.member.snapshot = some (Topology.ofScan records)) (before : Option Nat) :
    σ'.Follows p w (Reading.observe R before (σ'.followed? w) (some records)) := by
  refine ⟨h', ?_, ?_, ?_, (by rintro _ _ ⟨⟩)⟩
  · intro r hr
    obtain rfl := Option.some.inj hr
    exact Reading.fits_new records _
  · intro r hr
    obtain rfl := Option.some.inj hr
    exact hrecords
  · intro r hr t ht
    obtain rfl := Option.some.inj hr
    rw [hsnap] at ht
    obtain rfl := Option.some.inj ht
    exact (Reading.topology_new records _ _).symm

/-- A stream begins, and what was read before is brought up to date from now on. -/
theorem of_begin (h : σ.Follows p w R) (h' : σ'.Runs p w) (hmember : σ'.member = σ.member)
    (hstore : σ'.store = σ.store) (hf : σ.followed? w = none) {j : Nat}
    (hf' : σ'.followed? w = some j) :
    σ'.Follows p w (Reading.observe R (σ.followed? w) (σ'.followed? w) none) := by
  have hR : Reading.observe R (σ.followed? w) (σ'.followed? w) none =
      R.map (·.follow (some j)) := by
    rw [Reading.observe, if_neg (by simp [hf]), hf']
  have hfits (r : Reading) (hr : r ∈ R) : r.Fits none := hf ▸ h.fits r hr
  rw [hR]
  refine ⟨h', ?_, ?_, ?_, ?_⟩
  · intro r hr
    obtain ⟨r', hr', rfl⟩ := Option.map_eq_some_iff.1 hr
    rw [hf']
    exact ((hfits r' hr').begin (s := σ.store) j).1
  · intro r hr
    obtain ⟨r', hr', rfl⟩ := Option.map_eq_some_iff.1 hr
    exact h.sound r' hr'
  · intro r hr t ht
    obtain ⟨r', hr', rfl⟩ := Option.map_eq_some_iff.1 hr
    rw [hf', hstore, ((hfits r' hr').begin j).2, ← hf]
    exact h.snapshot r' hr' t (hmember ▸ ht)
  · intro at_ hat hnone
    exact h.synced at_ (hmember ▸ hat) (Option.map_eq_none_iff.1 hnone)

/-- The stream breaks, and the last reading is out of date. -/
theorem of_break (h' : σ'.Runs p w) {j : Nat} (hf : σ.followed? w = some j)
    (hf' : σ'.followed? w = none) (hsync : σ'.member.lastSync = none) :
    σ'.Follows p w (Reading.observe R (σ.followed? w) (σ'.followed? w) none) := by
  have hR : Reading.observe R (σ.followed? w) (σ'.followed? w) none = none := by
    rw [Reading.observe, hf, hf']
    rfl
  rw [hR]
  refine ⟨h', (by rintro _ ⟨⟩), (by rintro _ ⟨⟩), (by rintro _ ⟨⟩), ?_⟩
  intro at_ hat
  rw [hsync] at hat
  cases hat

/-- The loop goes on along the log, and applies what it passes. -/
theorem of_advance (h : σ.Follows p w R) (h' : σ'.Runs p w) (hstore : σ'.store = σ.store)
    {i j : Nat} (hf : σ.followed? w = some i) (hf' : σ'.followed? w = some j) (hij : i ≤ j)
    (hsnap : σ'.member.snapshot =
      σ.member.snapshot.map fun t => t.replay (σ.store.between i j))
    (hsync : σ'.member.lastSync = σ.member.lastSync) :
    σ'.Follows p w (Reading.observe R (σ.followed? w) (σ'.followed? w) none) := by
  have hfits (r : Reading) (hr : r ∈ R) : r.Fits (some i) := hf ▸ h.fits r hr
  have hR : Reading.observe R (σ.followed? w) (σ'.followed? w) none = R := by
    rw [Reading.observe, hf', if_neg (by simp)]
    cases R with
    | none => rfl
    | some r =>
        obtain ⟨records, since⟩ := r
        obtain ⟨i', rfl : since = some i', -⟩ := hfits _ rfl
        rfl
  rw [hR]
  refine ⟨h', ?_, h.sound, ?_, hsync ▸ h.synced⟩
  · intro r hr
    rw [hf']
    exact ((hfits r hr).advance (s := σ.store) hij).1
  · intro r hr t ht
    rw [hsnap] at ht
    obtain ⟨t', ht', rfl⟩ := Option.map_eq_some_iff.1 ht
    rw [hf', hstore, ((hfits r hr).advance hij).2, ← hf]
    rw [h.snapshot r hr t' ht']

/-- One step of a task beside the one that follows the store. -/
theorem steps_of_ne (h : σ.Follows p w R) {id : Nat} (hid : id ≠ w) {work : Work}
    {work' : Option Work} {m : Member} {s : Store} (hw : σ.work id = some work)
    (hg : σ.Goes p work m s work') (h' : ((σ.put m s).setWork id work').Runs p w) :
    ((σ.put m s).setWork id work').Follows p w (Reading.observe R (σ.followed? w)
      (((σ.put m s).setWork id work').followed? w) (σ.takesUp? (.step id))) := by
  have hu := h.others id work hw hid
  have hf := followed?_setWork_of_ne (σ := σ) hid m s work'
  cases hx : work.wait? with
  | none =>
      rw [takesUp?_eq_none]
      · obtain ⟨rfl, rfl⟩ := hg.of_isUpkeep hu hx
        exact h.of_followed?_eq h' (.refl _) hf (.inl rfl) (.inl rfl)
      · rintro _ f ⟨⟩ hf
        rw [wait?, hw] at hf
        cases hx.symm.trans hf
  | some x =>
      obtain ⟨r, hr, -⟩ := hg.advances hx
      have hwait : σ.wait? id = some x := by rw [wait?, hw]; exact hx
      -- the snapshot changes by a reading or not at all
      rcases hr.upkeep_cases (hu.errand x hx) h.running with
        ⟨f, records, rfl, hrecords, rfl, hsnap⟩ | ⟨hnone, hs, hsnap, hsync⟩
      · rw [takesUp?_of_call h.running hwait, hrecords]
        exact of_takesUp h' ((hu.scan f hx).of_scanned? hrecords) hsnap _
      · rw [takesUp?_eq_none]
        · exact h.of_followed?_eq h' hs hf hsnap (.inl hsync)
        · rintro _ f ⟨⟩ hf
          exact hnone f (Option.some.inj (hwait.symm.trans hf))

/-- One step of the task that follows the store. -/
theorem steps_self (h : σ.Follows p w R) {work : Work} {work' : Option Work} {m : Member}
    {s : Store} (hw : σ.work w = some work) (hg : σ.Goes p work m s work')
    (h' : ((σ.put m s).setWork w work').Runs p w) :
    ((σ.put m s).setWork w work').Follows p w (Reading.observe R (σ.followed? w)
      (((σ.put m s).setWork w work').followed? w) (σ.takesUp? (.step w))) := by
  obtain ⟨loop, hloop, hsound⟩ := h.loop
  obtain rfl := Option.some.inj (hw.symm.trans hloop)
  obtain ⟨rfl, loop', rfl, -, hmoves⟩ := hg.moves hsound h.running
  have hf : σ.followed? w = loop.position? := by
    rw [followed?, hw]
    rfl
  have hf' := σ.followed?_setWork_self w m σ.store p loop'
  rw [takesUp?_eq_none]
  · cases hmoves with
    | stays hpos hsnap hsync =>
        exact h.of_followed?_eq h' (.refl _) (by rw [hf', hf, hpos]) (.inl hsnap) hsync
    | begins hpos hpos' hm => exact h.of_begin h' hm rfl (hf.trans hpos) (hf'.trans hpos')
    | breaks hpos hpos' hsync => exact of_break h' (hf.trans hpos) (hf'.trans hpos') hsync
    | advances hpos hpos' hij hsnap hsync =>
        exact h.of_advance h' rfl (hf.trans hpos) (hf'.trans hpos') hij hsnap hsync
  · -- the loop waits for no call, only to tell of an event that it has applied
    rintro _ f ⟨⟩ hf
    rw [wait?, hw] at hf
    cases loop with
    | applying feed injected x =>
        obtain ⟨n, rfl⟩ := hsound.applying feed injected x rfl
        cases hf
    | _ => cases hf

/-- Whatever happens, the snapshot of the member is the last reading with the events that the task
has followed since. -/
theorem step (h : σ.Follows p w R) (hs : σ.Step p a σ') (happly : ∀ es, a ≠ .start p (.apply es))
    (hbatch : ∀ es, a ≠ .feedIn p (.batch es)) (hdrop : a ≠ .drop w)
    (hrunning : σ'.member.isCancelled = false)
    (hwf : ∀ e ∈ σ.store.published.toList, e.WellFormed) :
    σ'.Follows p w (Reading.observe R (σ.followed? w) (σ'.followed? w) (σ.takesUp? a)) := by
  have h' := h.toRuns.step hs happly hbatch hdrop hrunning hwf
  cases hs with
  | elsewhere hsp hother =>
      have hmember : σ'.member = σ.member := congrArg Leased.member hsp.leased
      rw [takesUp?_eq_none]
      · refine h.of_followed?_eq h' hsp.grows ?_ (.inl (by rw [hmember])) (.inl (by rw [hmember]))
        rw [followed?, followed?, hsp.work]
      · intro id f ha hf
        rw [wait?, hother id ha] at hf
        cases hf
  | @waits id work hw hidle =>
      rw [takesUp?_eq_none]
      · exact h.of_followed?_eq h' (.refl _) rfl (.inl rfl) (.inl rfl)
      · -- a call that could be answered now would have a step
        rintro _ f ⟨⟩ hf
        rw [wait?, hw] at hf
        refine Flight.scanned?_of_lt ?_
        rw [← Work.dueAt_of_wait? hf]
        exact hidle.due
  | @steps id work work' m s hw hg =>
      by_cases hid : id = w
      · subst hid
        exact h.steps_self hw hg h'
      · exact h.steps_of_ne hid hw hg h'
  | slows k d => exact h.of_followed?_eq h' (.refl _) rfl (.inl rfl) (.inl rfl)
  | @starts r x hc =>
      obtain ⟨rfl, -⟩ := isUpkeep_of_start p (fun es he => happly es (he ▸ rfl)) hrunning hc
      have hlt := h.lt
      refine h.of_followed?_eq h' (.refl _) ?_ (.inl rfl) (.inl rfl)
      rw [followed?, spawn_work, if_neg (by rw [put_nextTask]; omega)]
      rfl
  | @startsAndEnds r res hc =>
      obtain ⟨rfl, -⟩ := isUpkeep_of_start p (fun es he => happly es (he ▸ rfl)) hrunning hc
      exact h.of_followed?_eq h' (.refl _) rfl (.inl rfl) (.inl rfl)
  | registers hc hstarted => cases h.started.symm.trans hstarted
  | drops id =>
      have hid : id ≠ w := fun he => hdrop (he ▸ rfl)
      exact h.of_followed?_eq h' (.refl _) (followed?_setWork_of_ne hid σ.member σ.store none)
        (.inl rfl) (.inl rfl)
  | feedsIn what =>
      obtain ⟨loop, hloop, -⟩ := h.loop
      refine h.of_followed?_eq h' (.refl _) ?_ (.inl rfl) (.inl rfl)
      rw [followed?, followed?, feedIn_work, hloop]
      exact loop.position?_inject what

/-- When all events have been followed, the snapshot has the members of the store exactly if the
last reading is up to date. -/
theorem sameMembers_iff {r : Reading} (h : σ.Follows p w (some r)) {t : Topology}
    (ht : σ.member.snapshot = some t)
    (happlied : σ.followed? w = some σ.store.published.size)
    (hwf : ∀ e ∈ σ.store.published.toList, e.WellFormed) :
    t.sameMembers (Topology.ofScan σ.store.nodes) = true ↔ r.UpToDate σ.store := by
  rw [h.snapshot r rfl t ht, happlied]
  exact Reading.sameMembers_iff_upToDate h.logged hwf (h.sound r rfl)

end Follows

end Scene

end ServiceMesh
