import ServiceMesh.Proofs.Lease.Routine
import ServiceMesh.Proofs.Topology.Representation

/-!
What look-ups are answered from. The snapshot of a member was read in one scan of its store, and
since then nothing but events has changed it. So what holds of every scan and is kept by events
holds of the snapshot at any time, whatever the store and the other members did.
-/

namespace ServiceMesh

variable {P : Topology → Prop}

namespace Member

variable {m : Member}

def Knows (P : Topology → Prop) (m : Member) : Prop := ∀ t ∈ m.snapshot, P t

theorem knows_of_snapshot_eq_none (h : m.snapshot = none) : m.Knows P := by
  intro t ht
  cases h.symm.trans ht

theorem Knows.applyEvents (hP : Topology.IsKept P) (h : m.Knows P) (es : List Event) :
    (m.applyEvents es).1.Knows P := by
  induction es generalizing m with
  | nil => exact h
  | cons e es ih =>
      rw [Member.applyEvents]
      split
      · exact ih h
      · next t ht =>
          have hp : Knows P { m with snapshot := some (t.apply e).1 } := by
            intro u hu
            obtain rfl := Option.some.inj hu
            exact hP.apply (h t ht) e
          dsimp only
          split
          · exact hp
          · exact ih hp

theorem Knows.notified (hP : Topology.IsKept P) (h : m.Knows P) (p : NoticePoint) :
    (m.notified p).1.Knows P := by
  cases p with
  | synced => exact h
  | applied rest => exact h.applyEvents hP rest
  | finished => exact h

theorem Knows.resume (hP : Topology.IsKept P) (h : m.Knows P) (now : Nat) (p : CallPoint)
    (r : Except Failure p.Reply) : (m.resume now p r).1.Knows P := by
  cases p with
  | grant =>
      cases r with
      | error f => exact h
      | ok lease =>
          rw [Member.resume]
          split <;> exact h
  | publish lease =>
      cases r with
      | error f => exact h
      | ok u =>
          rw [Member.resume]
          split <;> exact h
  | withdraw => exact h
  | scan =>
      cases r with
      | error f => exact h
      | ok records =>
          rw [Member.resume]
          split
          · exact h
          · intro t ht
            obtain rfl := Option.some.inj ht
            exact hP.ofScan records
  | renew lease =>
      cases r with
      | ok u =>
          rw [Member.resume]
          split <;> exact h
      | error f =>
          rw [Member.resume]
          split
          · exact h
          · rw [renewalFailed]
            dsimp only
            split
            · exact knows_of_snapshot_eq_none rfl
            · exact h
  | retire => exact knows_of_snapshot_eq_none rfl

theorem Knows.start (hP : Topology.IsKept P) (h : m.Knows P) (now : Nat)
    (r : ServiceMesh.Routine) : (m.start now r).1.Knows P := by
  cases r with
  | upkeep => exact h
  | apply es => exact h.applyEvents hP es
  | withdrawal => exact h

/-- A member without a snapshot answers nothing. -/
theorem answers_of_snapshot_eq_none (h : m.snapshot = none) :
    (∀ name, m.directory.service name = .error .notReady) ∧
      m.directory.names = .error .notReady := by
  constructor
  · intro name
    change m.getService name = _
    rw [getService, h]
  · change m.listServices = _
    rw [listServices, h]

/-- What a member with a sound snapshot answers. -/
theorem answers_of_sound {t : Topology} (hs : m.snapshot = some t) (ht : t.Sound) :
    m.directory.names = .ok t.names ∧
      ∀ name, (name ∈ t.names ↔ ∃ s, m.directory.service name = .ok s) ∧
        (∀ s, m.directory.service name = .ok s → s.name = name ∧ s.nodes ≠ []) ∧
        ∀ f, m.directory.service name = .error f → f = .noSuchService name := by
  constructor
  · change m.listServices = _
    rw [listServices, hs]
  · intro name
    change (_ ↔ ∃ s, m.getService name = .ok s) ∧ (∀ s, m.getService name = .ok s → _) ∧
      ∀ f, m.getService name = .error f → _
    rw [ht.mem_names_iff, getService, hs]
    dsimp only
    cases hget : t.get? name with
    | none => simp [eq_comm]
    | some s => simp [ht.nodes_ne_nil hget, (ht.named name s hget).1]

end Member

namespace Scene

variable {σ σ' : Scene} {p : String} {m : Member} {s : Store} {a : Cluster.Act}

theorem Advances.knows (hP : Topology.IsKept P) {x : Wait} {r : Wait ⊕ Except Failure Unit}
    (h : σ.Advances x m s r) (hk : σ.member.Knows P) : m.Knows P := by
  cases h with
  | acts hr hdue hin => exact hk
  | resumes hy hr => exact hk.resume hP _ _ _
  | held n' => exact hk
  | told hr => exact hk.notified hP _

theorem Goes.knows (hP : Topology.IsKept P) {w : Work} {w' : Option Work} (h : σ.Goes p w m s w')
    (hk : σ.member.Knows P) : m.Knows P := by
  cases h with
  | routine ha => exact ha.knows hP hk
  | routineEnds ha => exact ha.knows hP hk
  | ticking ha => exact ha.knows hP hk
  | tickEnds ha hl => exact ha.knows hP hk
  | applying ha => exact ha.knows hP hk
  | hands hc hn hr => exact hk.applyEvents hP _
  | handsBatch hc hn hr => exact hk.applyEvents hP _
  | _ => exact hk

theorem Step.knows (hP : Topology.IsKept P) (h : σ.Step p a σ') (hk : σ.member.Knows P) :
    σ'.member.Knows P := by
  cases h with
  | elsewhere hsp hother => rwa [member, hsp.leased]
  | steps hw hg => exact hg.knows hP hk
  | @starts r w hi => exact hk.start hP _ r
  | @startsAndEnds r res hi => exact hk.start hP _ r
  | _ => exact hk

end Scene

namespace Cluster

variable {c : Cluster} {p : String} {σ : Scene} {acts : List Act}

theorem Shows.knows_play (hP : Topology.IsKept P) (h : c.Shows p σ) (ht : c.Tidy)
    (hk : σ.member.Knows P) (hstays : Along (Stays p) c acts) :
    (c.play acts).Tidy ∧ ∃ σ', (c.play acts).Shows p σ' ∧ σ'.member.Knows P := by
  induction acts generalizing c σ with
  | nil => exact ⟨ht, σ, h, hk⟩
  | cons a acts ih =>
      obtain ⟨σ', h', hstep⟩ := h.act ht hstays.1
      exact ih h' (ht.act a) (hstep.knows hP hk) hstays.2

/-- Whatever was stored, each service of a topology stands under its own name with nodes of distinct
identifiers, and an event changes nothing but the service in its key, and not even that if it says
so. Hence at any time of a member's life the names that it lists are those of the services that it
finds, under their names and with nodes, and every other name is unknown to it; without a snapshot
it answers nothing. -/
theorem directory_sound (hnew : c.New p) (hstays : Along (Stays p) c acts) :
    (∀ t : Topology, t.Reachable → t.Sound ∧
      ∀ e : Event, ((t.apply e).2 = false → (t.apply e).1 = t) ∧
        ∀ name, e.service? ≠ some name → (t.apply e).1.get? name = t.get? name) ∧
    ∃ m, (c.play acts).member? p = some m ∧
      (m.snapshot = none →
        (∀ name, ((c.play acts).directory p).service name = .error .notReady) ∧
        ((c.play acts).directory p).names = .error .notReady) ∧
      ∀ t, m.snapshot = some t →
        ((c.play acts).directory p).names = .ok t.names ∧
        ∀ name, (name ∈ t.names ↔ ∃ s, ((c.play acts).directory p).service name = .ok s) ∧
          (∀ s, ((c.play acts).directory p).service name = .ok s → s.name = name ∧ s.nodes ≠ []) ∧
          ∀ f, ((c.play acts).directory p).service name = .error f → f = .noSuchService name := by
  constructor
  · intro t ht
    refine ⟨ht.sound, fun e => ⟨ht.proper.apply_of_not_changed, fun name hname => ?_⟩⟩
    exact Topology.get?_apply_of_ne hname
  · obtain ⟨σ, h⟩ := hnew.hasMember.shows
    have hnone : σ.member.snapshot = none := by
      rw [hnew.member σ.member h.member?]
    obtain ⟨-, σ', h', hk⟩ := h.knows_play Topology.isKept_reachable hnew.tidy
      (Member.knows_of_snapshot_eq_none hnone) hstays
    refine ⟨σ'.member, h'.member?, ?_⟩
    rw [h'.directory]
    refine ⟨Member.answers_of_snapshot_eq_none, fun t hs => ?_⟩
    have ht : t.Reachable := hk t hs
    exact Member.answers_of_sound hs ht.sound

def beginner : Cluster :=
  ({} : Cluster).act
    (.join "m" ⟨.new 16 .block, .leased {
      member := { node := Node.new "svc-a" "10.0.0.1" 9001, settings := {} }
      store := 0 }⟩)

/-- Others have left a record under an identifier that is not its own, and bytes that are no record.
The beginner registers and reads what is there. -/
def readingMislabelled : List Act :=
  [.use 0 (.put (Node.key "svc-b" "10.0.0.9:1") (Node.new "svc-b" "10.0.0.2" 9002).encode none),
    .use 0 (.put (Node.key "svc-c" "10.0.0.3:9003") [0] none), .start "m" .upkeep] ++
    List.replicate 6 (.step 0)

theorem directory_sound_mislabelled :
    let d := (beginner.play readingMislabelled).directory "m"
    beginner.New "m" ∧ Along (Stays "m") beginner readingMislabelled ∧
      d.names = .ok ["svc-a", "svc-b"] ∧
      (∃ s, d.service "svc-b" = .ok s ∧ s.name = "svc-b" ∧ s.nodes ≠ []) ∧
      ∀ f, d.service "svc-c" = .error f → f = .noSuchService "svc-c" := by
  intro d
  have hnew : beginner.New "m" := new_join rfl rfl _
  have hstays : Along (Stays "m") beginner readingMislabelled := by decide +kernel
  have hnames : d.names = .ok ["svc-a", "svc-b"] := by decide +kernel
  refine ⟨hnew, hstays, hnames, ?_⟩
  obtain ⟨-, m, -, hnone, hsome⟩ := directory_sound hnew hstays
  cases hs : m.snapshot with
  | none => cases hnames.symm.trans (hnone hs).2
  | some t =>
      obtain ⟨hlisted, hservice⟩ := hsome t hs
      have ht : ["svc-a", "svc-b"] = t.names := Except.ok.inj (hnames.symm.trans hlisted)
      obtain ⟨hb, hnamed, -⟩ := hservice "svc-b"
      obtain ⟨s, hs⟩ := hb.1 (by simp [← ht])
      exact ⟨⟨s, hs, hnamed s hs⟩, (hservice "svc-c").2.2⟩

end Cluster

end ServiceMesh
