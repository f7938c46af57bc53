import ServiceMesh.Proofs.Lease.Following

/-!
A snapshot without gaps. A member whose stream follows the store and that has nothing left to apply
has the members of the store in its snapshot, unless its last reading was out of date when it was
taken up: a change that came after the records were read, and whose event was over before they were
swapped in, is missed until the key changes again or the topology is read anew.
-/

namespace ServiceMesh

namespace Cluster

variable {p : String} {w : Nat} {c : Cluster} {a : Act} {acts : List Act}

def storeOf (c : Cluster) (p : String) : Store :=
  match c.leased? p with
  | some l => c.store l.store
  | none => .empty

def followed? (c : Cluster) (p : String) (w : Nat) : Option Nat :=
  (c.work? p w).bind Work.position?

def takesUp? (c : Cluster) (p : String) (a : Act) : Option (List (String × List UInt8)) :=
  a.step?.bind fun id =>
    match c.wait? p id with
    | some (.call f) => if c.isCancelled p then none else f.scanned? c.now
    | _ => none

/-- The last reading of a party's member after a run, if its stream has not broken since. -/
def reading (p : String) (w : Nat) : Option Reading → Cluster → List Act → Option Reading
  | R, _, [] => R
  | R, c, a :: acts =>
    reading p w (Reading.observe R (c.followed? p w) ((c.act a).followed? p w) (c.takesUp? p a))
      (c.act a) acts

structure Fresh (p : String) (c : Cluster) : Prop where
  tidy : c.Tidy
  hasMember : c.HasMember p
  logged : (c.storeOf p).Logged
  member : ∀ m ∈ c.member? p, m.isCancelled = false ∧ m.isStarted = false ∧ m.lastSync = none
  tasks : ∀ t ∈ c.tasks, t.work.party = p → ∃ sink who, t.work = .follow p sink who

/-- A fresh member was registered just now, and the task follows the store for it. -/
def Enrolled (p : String) (w : Nat) (c : Cluster) : Prop :=
  ∃ c₀, Fresh p c₀ ∧ w = c₀.nextTask + 1 ∧ c = c₀.act (.register p)

/-- The party keeps its member and the task that follows the store, and there are no events for it
but those of the store. -/
structure LeftAlone (p : String) (w : Nat) (_ : Cluster) (a : Act) : Prop where
  join : ∀ P, a ≠ .join p P
  apply : ∀ es, a ≠ .start p (.apply es)
  feedIn : ∀ es, a ≠ .feedIn p (.batch es)
  drop : a ≠ .drop w

/-- The member of a party has not been withdrawn, and its store has well-formed events only. -/
structure IsSane (p : String) (c : Cluster) : Prop where
  running : ∃ m ∈ c.member? p, m.isCancelled = false
  wellFormed : ∀ e ∈ (c.storeOf p).published.toList, e.WellFormed

/-- The member of a party is up and has a snapshot, and every event of its store has been
applied. -/
structure CaughtUp (p : String) (w : Nat) (t : Topology) (c : Cluster) : Prop extends
    IsSane p c where
  snapshot : ∀ m ∈ c.member? p, m.snapshot = some t
  applied : c.followed? p w = some (c.storeOf p).published.size

theorem leftAlone_iff : LeftAlone p w c a ↔
    (∀ P, a ≠ .join p P) ∧ (∀ es, a ≠ .start p (.apply es)) ∧ (∀ es, a ≠ .feedIn p (.batch es)) ∧
      a ≠ .drop w :=
  ⟨fun h => ⟨h.join, h.apply, h.feedIn, h.drop⟩, fun h => ⟨h.1, h.2.1, h.2.2.1, h.2.2.2⟩⟩

instance (p : String) (w : Nat) (c : Cluster) (a : Act) : Decidable (LeftAlone p w c a) :=
  match a with
  | .join q P => decidable_of_iff (q ≠ p) (by simp [leftAlone_iff])
  | .start q (.apply es) => decidable_of_iff (q ≠ p) (by simp [leftAlone_iff])
  | .start q .upkeep => isTrue (by simp [leftAlone_iff])
  | .start q .withdrawal => isTrue (by simp [leftAlone_iff])
  | .feedIn q (.batch es) => decidable_of_iff (q ≠ p) (by simp [leftAlone_iff])
  | .feedIn q .failure => isTrue (by simp [leftAlone_iff])
  | .feedIn q .ending => isTrue (by simp [leftAlone_iff])
  | .drop id => decidable_of_iff (id ≠ w) (by simp [leftAlone_iff])
  | .step id => isTrue (by simp [leftAlone_iff])
  | .pass ms => isTrue (by simp [leftAlone_iff])
  | .use i op => isTrue (by simp [leftAlone_iff])
  | .slow q k d => isTrue (by simp [leftAlone_iff])
  | .register q => isTrue (by simp [leftAlone_iff])
  | .useBus q op => isTrue (by simp [leftAlone_iff])

instance (p : String) (c : Cluster) : Decidable (IsSane p c) :=
  decidable_of_iff
    ((∃ m ∈ c.member? p, m.isCancelled = false) ∧
      ∀ e ∈ (c.storeOf p).published.toList, e.WellFormed)
    ⟨fun h => ⟨h.1, h.2⟩, fun h => ⟨h.running, h.wellFormed⟩⟩

instance (p : String) (w : Nat) (t : Topology) (c : Cluster) : Decidable (CaughtUp p w t c) :=
  decidable_of_iff
    (c.IsSane p ∧ (∀ m ∈ c.member? p, m.snapshot = some t) ∧
      c.followed? p w = some (c.storeOf p).published.size)
    ⟨fun h => ⟨h.1, h.2.1, h.2.2⟩, fun h => ⟨h.toIsSane, h.snapshot, h.applied⟩⟩

theorem reading_append (R : Option Reading) (c : Cluster) (acts acts' : List Act) :
    reading p w R c (acts ++ acts') = reading p w (reading p w R c acts) (c.play acts) acts' := by
  induction acts generalizing R c with
  | nil => rfl
  | cons a acts ih => exact ih _ _

theorem Shows.followed? {σ : Scene} (h : c.Shows p σ) (w : Nat) :
    c.followed? p w = σ.followed? w := by
  rw [Cluster.followed?, h.work, Scene.followed?]

theorem Shows.takesUp? {σ : Scene} (h : c.Shows p σ) (a : Act) : c.takesUp? p a = σ.takesUp? a := by
  simp only [Cluster.takesUp?, h.wait?, h.now, h.isCancelled]
  rfl

theorem Shows.storeOf {σ : Scene} (h : c.Shows p σ) : c.storeOf p = σ.store := by
  rw [Cluster.storeOf, h.leased]
  exact h.store

theorem Shows.isSane_iff {σ : Scene} (h : c.Shows p σ) :
    c.IsSane p ↔ σ.member.isCancelled = false ∧
      ∀ e ∈ σ.store.published.toList, e.WellFormed := by
  rw [← h.storeOf]
  constructor
  · rintro ⟨⟨m, hm, hc⟩, hwf⟩
    obtain rfl := Option.some.inj (h.member?.symm.trans hm)
    exact ⟨hc, hwf⟩
  · rintro ⟨hc, hwf⟩
    exact ⟨⟨σ.member, h.member?, hc⟩, hwf⟩

/-! ### Runs -/

theorem Shows.play {σ : Scene} (h : c.Shows p σ) (ht : c.Tidy)
    (hleft : Along (LeftAlone p w) c acts) :
    (c.play acts).Tidy ∧ ∃ σ', (c.play acts).Shows p σ' := by
  induction acts generalizing c σ with
  | nil => exact ⟨ht, σ, h⟩
  | cons a acts ih =>
      obtain ⟨σ', h', -⟩ := h.act ht hleft.1.join
      exact ih h' (ht.act a) hleft.2

/-- What is well in the end was well before. -/
theorem Shows.isSane_of_play {σ : Scene} (h : c.Shows p σ) (ht : c.Tidy)
    (hleft : Along (LeftAlone p w) c acts) (hs : (c.play acts).IsSane p) : c.IsSane p := by
  induction acts generalizing c σ with
  | nil => exact hs
  | cons a acts ih =>
      obtain ⟨σ', h', hstep⟩ := h.act ht hleft.1.join
      obtain ⟨hc, hwf⟩ := h'.isSane_iff.1 (ih h' (ht.act a) hleft.2 hs)
      -- no step takes a withdrawal back or an event out of the log
      refine h.isSane_iff.2 ⟨?_, fun e he => hwf e (hstep.grows.published_isPrefixOf.subset he)⟩
      cases hc' : σ.member.isCancelled with
      | false => rfl
      | true => cases (hstep.isCancelled hc').symm.trans hc

/-- One act of a run that keeps to the rules. -/
theorem Shows.follows_act {σ : Scene} {R : Option Reading} (h : c.Shows p σ) (ht : c.Tidy)
    (hf : σ.Follows p w R) (ha : LeftAlone p w c a) (hs : (c.act a).IsSane p) :
    ∃ σ', (c.act a).Shows p σ' ∧ σ.Step p a σ' ∧
      σ'.Follows p w
        (Reading.observe R (c.followed? p w) ((c.act a).followed? p w) (c.takesUp? p a)) := by
  obtain ⟨σ', h', hstep⟩ := h.act ht ha.join
  obtain ⟨hc, hwf⟩ := h'.isSane_iff.1 hs
  refine ⟨σ', h', hstep, ?_⟩
  rw [h.followed?, h'.followed?, h.takesUp?]
  exact hf.step hstep ha.apply ha.feedIn ha.drop hc fun e he =>
    hwf e (hstep.grows.published_isPrefixOf.subset he)

theorem Shows.follows_play {σ : Scene} {R : Option Reading} (h : c.Shows p σ) (ht : c.Tidy)
    (hf : σ.Follows p w R) (hleft : Along (LeftAlone p w) c acts) (hs : (c.play acts).IsSane p) :
    ∃ σ', (c.play acts).Shows p σ' ∧ σ'.Follows p w (reading p w R c acts) := by
  induction acts generalizing c σ R with
  | nil => exact ⟨σ, h, hf⟩
  | cons a acts ih =>
      obtain ⟨σ₁, h₁, -⟩ := h.act ht hleft.1.join
      have hsane := h₁.isSane_of_play (ht.act a) hleft.2 hs
      obtain ⟨σ', h', -, hf'⟩ := h.follows_act ht hf hleft.1 hsane
      exact ih h' (ht.act a) hf' hleft.2 hs

/-- With its registration a member begins to follow its store. -/
theorem Enrolled.follows (h : c.Enrolled p w) :
    c.Tidy ∧ ∃ σ, c.Shows p σ ∧ σ.Follows p w none := by
  obtain ⟨c, h, rfl, rfl⟩ := h
  refine ⟨h.tidy.act _, ?_⟩
  obtain ⟨σ, hσ⟩ := h.hasMember.shows
  obtain ⟨hc, hs, hsync⟩ := h.member σ.member hσ.member?
  have hlogged := h.logged
  rw [hσ.storeOf] at hlogged
  obtain ⟨a, b, hσ'⟩ := hσ.startLoops_self h.tidy hs
  have hact : c.act (.register p) = c.startLoops p := by
    rw [act, if_neg]
    rw [hσ.isCancelled, hc]
    exact Bool.false_ne_true
  rw [hact, hσ.nextTask]
  refine ⟨_, hσ', ⟨hc, rfl, hlogged, Nat.lt_succ_self _, ⟨_, if_pos rfl, .of_feed?_eq_none rfl⟩,
    fun id work hw hid => ?_⟩, (by rintro r ⟨⟩), (by rintro r ⟨⟩), (by rintro r ⟨⟩),
    fun at_ hat => ?_⟩
  · rw [Scene.spawn_work, Scene.spawn_nextTask, Scene.put_nextTask, if_neg hid,
      Scene.spawn_work] at hw
    split at hw
    · obtain rfl := Option.some.inj hw
      exact ⟨(by rintro _ _ ⟨⟩), (by rintro _ ⟨⟩), (by rintro _ ⟨⟩)⟩
    · change σ.work id = some work at hw
      rw [← hσ.work, work?_eq_some_iff] at hw
      obtain ⟨ht, hp⟩ := hw
      -- the older tasks of the party only follow its bus
      obtain ⟨sink, who, rfl⟩ := h.tasks _ (List.mem_of_find?_eq_some ht) hp
      exact ⟨(by rintro _ _ ⟨⟩), (by rintro _ ⟨⟩), (by rintro _ ⟨⟩)⟩
  · change at_ ∈ σ.member.lastSync at hat
    rw [hsync] at hat
    cases hat

/-- The snapshot of a member that has caught up, by its last reading. -/
theorem CaughtUp.sameMembers_iff {t : Topology} (h : c.CaughtUp p w t) {σ : Scene}
    (hσ : c.Shows p σ) {r : Reading} (hf : σ.Follows p w (some r)) :
    t.sameMembers (Topology.ofScan (c.storeOf p).nodes) = true ↔ r.UpToDate (c.storeOf p) := by
  have happlied := h.applied
  have hwf := h.wellFormed
  rw [hσ.followed?] at happlied
  rw [hσ.storeOf] at happlied hwf ⊢
  exact hf.sameMembers_iff (h.snapshot _ hσ.member?) happlied hwf

/-- In every run of a registered member, whatever the order in which the rounds of upkeep, the
watch loop and all others come: when all events have been applied and the snapshot is not due to be
read again, it has the members of the store exactly if the last reading is up to date. -/
theorem snapshot_sameMembers_iff (h : c.Enrolled p w) (hleft : Along (LeftAlone p w) c acts)
    {t : Topology} (hup : (c.play acts).CaughtUp p w t)
    (hsync : ∀ m ∈ (c.play acts).member? p, m.needsResync (c.play acts).now = false) :
    ∃ r, reading p w none c acts = some r ∧
      (t.sameMembers (Topology.ofScan ((c.play acts).storeOf p).nodes) = true ↔
        r.UpToDate ((c.play acts).storeOf p)) := by
  obtain ⟨htidy, σ, hσ, hf⟩ := h.follows
  obtain ⟨σ', hσ', hf'⟩ := hσ.follows_play htidy hf hleft hup.toIsSane
  -- the mark of a reading is there, and with it the reading
  have hsynced : σ'.member.lastSync ≠ none := by
    intro hnone
    have hneeds := hsync _ hσ'.member?
    rw [Member.needsResync, hnone, Bool.or_true] at hneeds
    cases hneeds
  obtain ⟨at_, hat⟩ := Option.ne_none_iff_exists'.1 hsynced
  obtain ⟨r, hr⟩ := Option.ne_none_iff_exists'.1 (hf'.synced at_ hat)
  rw [hr] at hf'
  exact ⟨r, hr, hup.sameMembers_iff hσ' hf'⟩

/-- A member that is the first to join is fresh. -/
theorem fresh_join {l : Leased} (hl : l.store = 0) (hc : l.member.isCancelled = false)
    (hs : l.member.isStarted = false) (hsync : l.member.lastSync = none) (b : Bus) :
    (({} : Cluster).act (.join p ⟨b, .leased l⟩)).Fresh p := by
  have hleased : (({} : Cluster).act (.join p ⟨b, .leased l⟩)).leased? p = some l := by
    rw [act, leased?, party?_setParty, if_pos rfl]
  refine ⟨(by rintro _ ⟨⟩), ⟨l, hleased, hl ▸ Nat.one_pos⟩, ?_, fun m hm => ?_, (by rintro _ ⟨⟩)⟩
  · rw [storeOf, hleased]
    dsimp only
    rw [hl]
    exact Store.logged_empty
  · rw [member?, hleased] at hm
    obtain rfl := Option.some.inj hm
    exact ⟨hc, hs, hsync⟩

/-- The first member of a cluster; the answers to its scans take half a second. -/
def slowReader : Leased where
  member := { node := Node.new "svc-a" "10.0.0.1" 9001, settings := {} }
  store := 0
  delays := [(.scan, ⟨0, 500⟩)]

def alone : Cluster :=
  (({} : Cluster).act (.join "m" ⟨.new 16 .block, .leased slowReader⟩)).act (.register "m")

def newcomer : Node := Node.new "svc-b" "10.0.0.2" 9002

def ownNodeOnly : Topology := Topology.empty.upsert "svc-a" slowReader.member.node

def streamFirst : List Act := [.step 1, .step 1]

/-- Another node comes while the answer to the first scan is on its way, and the loop is done with
the event of it before there is a snapshot. -/
def overtaken : List Act :=
  [.pass 1000, .step 0, .step 0, .step 0, .step 0, .step 0, .step 0,
    .use 0 (.put newcomer.path newcomer.encode none), .step 1, .step 1,
    .pass 500, .step 0, .step 0, .step 0, .step 0]

theorem enrolled_alone : alone.Enrolled "m" 1 := ⟨_, fresh_join rfl rfl rfl rfl _, rfl, rfl⟩

theorem snapshot_sameMembers_iff_overtaken :
    alone.Enrolled "m" 1 ∧ Along (LeftAlone "m" 1) alone (streamFirst ++ overtaken) ∧
      ∃ r, reading "m" 1 none alone (streamFirst ++ overtaken) = some r ∧
        (ownNodeOnly.sameMembers (Topology.ofScan
            ((alone.play (streamFirst ++ overtaken)).storeOf "m").nodes) = true ↔
          r.UpToDate ((alone.play (streamFirst ++ overtaken)).storeOf "m")) :=
  ⟨enrolled_alone, by decide +kernel, snapshot_sameMembers_iff enrolled_alone (by decide +kernel)
    (by decide +kernel) (by decide +kernel)⟩

/-- The stream was there before the first round began and never broke, all events have been applied,
no round is under way and none is due to read the store, but the new node is missing. -/
theorem snapshot_overtaken :
    alone.Enrolled "m" 1 ∧ Along (LeftAlone "m" 1) alone (streamFirst ++ overtaken) ∧
      Along (fun c _ => c.wait? "m" 0 = none) alone streamFirst ∧
      Along (fun c _ => c.followed? "m" 1 ≠ none) (alone.play streamFirst) overtaken ∧
      (alone.play (streamFirst ++ overtaken)).CaughtUp "m" 1 ownNodeOnly ∧
      (alone.play (streamFirst ++ overtaken)).wait? "m" 0 = none ∧
      (∀ m ∈ (alone.play (streamFirst ++ overtaken)).member? "m",
        m.needsResync (alone.play (streamFirst ++ overtaken)).now = false) ∧
      ownNodeOnly.sameMembers (Topology.ofScan
        ((alone.play (streamFirst ++ overtaken)).storeOf "m").nodes) = false :=
  ⟨enrolled_alone, by decide +kernel⟩

end Cluster

end ServiceMesh
