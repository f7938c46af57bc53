import ServiceMesh.Proofs.Cluster.Evolution
import ServiceMesh.Proofs.Lease.Routine

/-!
The loops of a member. Each of them ends when it finds the member withdrawn, and at no other time:
a member that nobody withdraws is kept registered, whether or not anyone still thinks of it.
-/

namespace ServiceMesh

namespace Scene

variable {σ σ' : Scene} {p : String} {m : Member} {s : Store} {a : Cluster.Act}

structure IsUp (p : String) (σ : Scene) : Prop where
  running : σ.member.isCancelled = false
  started : σ.member.isStarted = true
  keepAlive : ∃ id loop, σ.work id = some (.keepAlive p loop)
  watch : ∃ id loop, σ.work id = some (.watch p loop)

theorem Goes.keepAlive {loop : KeepAliveLoop} {w' : Option Work}
    (h : σ.Goes p (.keepAlive p loop) m s w') (hc : σ.member.isCancelled = false) :
    ∃ loop', w' = some (.keepAlive p loop') := by
  cases h with
  | keepAliveEnds hc' hl => cases hc.symm.trans hc'
  | _ => exact ⟨_, rfl⟩

theorem Goes.watch {loop : WatchLoop} {w' : Option Work} (h : σ.Goes p (.watch p loop) m s w')
    (hc : σ.member.isCancelled = false) : ∃ loop', w' = some (.watch p loop') := by
  cases h with
  | watchEnds hc' hl => cases hc.symm.trans hc'
  | _ => exact ⟨_, rfl⟩

/-- Work of a kind is still there when a task has gone on, if the task itself keeps to the kind. -/
theorem exists_setWork {α : Type} {f : α → Work} {i : Nat} {w : Work} {w' : Option Work}
    (hw : σ.work i = some w) (hgoes : ∀ x, w = f x → ∃ y, w' = some (f y))
    (h : ∃ k x, σ.work k = some (f x)) : ∃ k x, (σ.setWork i w').work k = some (f x) := by
  obtain ⟨k, x, hk⟩ := h
  refine ⟨k, ?_⟩
  rw [setWork_work]
  by_cases hi : k = i
  · subst hi
    rw [if_pos rfl]
    exact hgoes x (Option.some.inj (hw.symm.trans hk))
  · rw [if_neg hi]
    exact ⟨x, hk⟩

/-- Nothing that happens by itself ends a loop. -/
theorem IsUp.step (h : σ.IsUp p) (ha : a.IsOwn) (hs : σ.Step p a σ') : σ'.IsUp p := by
  cases hs with
  | elsewhere hsp hother =>
      have hm : σ'.member = σ.member := congrArg Leased.member hsp.leased
      constructor
      · rw [hm, h.running]
      · rw [hm, h.started]
      · rw [hsp.work]
        exact h.keepAlive
      · rw [hsp.work]
        exact h.watch
  | waits hw hidle => exact h
  | @steps i w w' m s hw hg =>
      have hm := hg.alike
      refine ⟨hm.isCancelled.trans h.running, hm.isStarted.trans h.started, ?_, ?_⟩
      · refine exists_setWork (f := .keepAlive p) hw (fun loop hloop => ?_) h.keepAlive
        subst hloop
        exact hg.keepAlive h.running
      · refine exists_setWork (f := .watch p) hw (fun loop hloop => ?_) h.watch
        subst hloop
        exact hg.watch h.running
  | _ => exact ha.elim

end Scene

namespace Cluster

variable {c d : Cluster} {p : String} {σ : Scene}

structure IsFresh (p : String) (c : Cluster) : Prop where
  tidy : c.Tidy
  hasMember : c.HasMember p
  member : ∀ m ∈ c.member? p, m.isCancelled = false ∧ m.isStarted = false

/-- The member of a party is registered and not withdrawn, and the loop that renews its lease and
publishes its node and the one that follows the store are both there. -/
structure IsUp (p : String) (c : Cluster) : Prop where
  hasMember : c.HasMember p
  member : ∃ m, c.member? p = some m ∧ m.isCancelled = false ∧ m.isStarted = true
  keepAlive : ∃ id loop, c.work? p id = some (.keepAlive p loop)
  watch : ∃ id loop, c.work? p id = some (.watch p loop)

/-- The member of a party has been withdrawn, and its loops go no further than to the end of what
they are at. -/
structure IsWithdrawn (p : String) (c : Cluster) : Prop where
  hasMember : c.HasMember p
  member : ∃ m, c.member? p = some m ∧ m.isCancelled = true
  keepAlive : ∀ loop : KeepAliveLoop, loop.IsResting → c.stepKeepAlive p loop = some (c, none)
  watch : ∀ loop : WatchLoop, loop.IsResting → c.stepWatch p loop = some (c, none)

theorem Shows.hasMember (h : c.Shows p σ) : c.HasMember p := ⟨σ.leased, h.leased, h.hosted⟩

theorem Shows.isUp_iff (h : c.Shows p σ) : c.IsUp p ↔ σ.IsUp p := by
  constructor
  · rintro ⟨-, ⟨m, hm, hc, hs⟩, hk, hw⟩
    obtain rfl := Option.some.inj (h.member?.symm.trans hm)
    simp only [h.work] at hk hw
    exact ⟨hc, hs, hk, hw⟩
  · intro hup
    refine ⟨h.hasMember, ⟨σ.member, h.member?, hup.running, hup.started⟩, ?_, ?_⟩
    · simp only [h.work]
      exact hup.keepAlive
    · simp only [h.work]
      exact hup.watch

theorem Shows.isWithdrawn_iff (h : c.Shows p σ) :
    c.IsWithdrawn p ↔ σ.member.isCancelled = true := by
  constructor
  · rintro ⟨-, ⟨m, hm, hc⟩, -, -⟩
    obtain rfl := Option.some.inj (h.member?.symm.trans hm)
    exact hc
  · intro hc
    have hcancelled : c.isCancelled p = true := h.isCancelled.trans hc
    have hl : σ.leased.member.isCancelled = true := hc
    refine ⟨h.hasMember, ⟨σ.member, h.member?, hc⟩, fun loop hloop => ?_, fun loop hloop => ?_⟩
    · cases loop with
      | ticking w => exact hloop.elim
      | _ => rw [Cluster.stepKeepAlive, if_pos hcancelled]
    · cases loop with
      | applying feed injected w => exact hloop.elim
      | backingOff t => rw [Cluster.stepWatch, if_pos hcancelled]
      | _ => simp [Cluster.stepWatch, h.leased, hl]

theorem IsUp.evolves (h : c.IsUp p) (hc : c.Tidy) (he : c.Evolves d) : d.IsUp p := by
  obtain ⟨σ, hσ⟩ := h.hasMember.shows
  obtain ⟨σ', hσ', hup⟩ := he.shows (fun ha hs hup => Scene.IsUp.step hup ha hs) hc
    ⟨σ, hσ, hσ.isUp_iff.1 h⟩
  exact hσ'.isUp_iff.2 hup

/-- Nobody takes a withdrawal back. -/
theorem IsWithdrawn.act (h : c.IsWithdrawn p) (hc : c.Tidy) {a : Act} (ha : ∀ P, a ≠ .join p P) :
    (c.act a).IsWithdrawn p := by
  obtain ⟨σ, hσ⟩ := h.hasMember.shows
  obtain ⟨σ', hσ', hstep⟩ := hσ.act hc ha
  exact hσ'.isWithdrawn_iff.2 (hstep.isCancelled (hσ.isWithdrawn_iff.1 h))

theorem IsWithdrawn.evolves (h : c.IsWithdrawn p) (hc : c.Tidy) (he : c.Evolves d) :
    d.IsWithdrawn p := by
  obtain ⟨σ, hσ⟩ := h.hasMember.shows
  obtain ⟨σ', hσ', hcancelled⟩ := he.shows (Q := fun σ => σ.member.isCancelled = true)
    (fun _ hs => hs.isCancelled) hc ⟨σ, hσ, hσ.isWithdrawn_iff.1 h⟩
  exact hσ'.isWithdrawn_iff.2 hcancelled

/-! ### Registering and withdrawing -/

/-- Somebody joins with a member. -/
theorem isFresh_join (hc : c.Tidy) {store : Nat} (hs : store < c.stores.length) (n : Node)
    (settings : LeaseSettings) (b : Bus) :
    (c.join p { node := n, settings } store b).IsFresh p := by
  have hl : (c.join p { node := n, settings } store b).leased? p =
      some { member := { node := n, settings }, store } := by
    rw [leased?, join, party?_setParty, if_pos rfl]
  refine ⟨hc, ⟨_, hl, hs⟩, fun m hm => ?_⟩
  rw [member?, hl] at hm
  obtain rfl := Option.some.inj hm
  exact ⟨rfl, rfl⟩

/-- Registering a member that is new brings it up. -/
theorem isUp_register (hnew : c.IsFresh p) :
    (c.register p).1.Tidy ∧ (c.register p).1.IsUp p := by
  obtain ⟨hc, hm, hmember⟩ := hnew
  obtain ⟨σ, h⟩ := hm.shows
  obtain ⟨hrunning, hstarted⟩ := hmember σ.member h.member?
  obtain ⟨a, b, hσ⟩ := h.startLoops_self hc hstarted
  have htidy : (c.startLoops p).Tidy := startLoops_tidy hc p
  have hup : (c.startLoops p).IsUp p := by
    refine hσ.isUp_iff.2 ⟨hrunning, rfl,
      ⟨σ.nextTask, .sleeping (σ.now + σ.member.settings.tick), ?_⟩,
      ⟨σ.nextTask + 1, .subscribing a b none, ?_⟩⟩
    · simp [Scene.spawn_work]
    · simp [Scene.spawn_work]
  have hregister : c.register p = ((c.startLoops p).settle, .ok ()) := by
    rw [register_of_leased h.leased hrunning, Cluster.act, h.isCancelled,
      if_neg (by simp [hrunning])]
  rw [hregister]
  exact ⟨(evolves_settle _).tidy htidy, hup.evolves htidy (evolves_settle _)⟩

/-- Registering a member that is up changes nothing but what comes by itself. -/
theorem IsUp.evolves_register (h : c.IsUp p) : c.Evolves (c.register p).1 := by
  obtain ⟨l, hl, -⟩ := h.hasMember
  obtain ⟨m, hm, hrunning, hstarted⟩ := h.member
  rw [member?, hl] at hm
  obtain rfl := Option.some.inj hm
  have hact : c.act (.register p) = c := by
    have hm : c.member? p = some l.member := by
      rw [member?, hl]
      rfl
    rw [Cluster.act, startLoops, hm]
    dsimp only
    rw [if_pos hstarted, ite_self]
  rw [register_of_leased hl hrunning, hact]
  exact evolves_settle c

/-- A member is cancelled as soon as its withdrawal begins. -/
theorem isWithdrawn_start (hm : c.HasMember p) (hc : c.Tidy) :
    (c.act (.start p .withdrawal)).IsWithdrawn p := by
  obtain ⟨σ, h⟩ := hm.shows
  have hset : (c.setMember p { σ.member with isCancelled := true }).member? p =
      some { σ.member with isCancelled := true } := by
    rw [member?, leased?_setMember_self h.leased]
    rfl
  have hcancelled : (c.act (.start p .withdrawal)).member? p =
      some { σ.member with isCancelled := true } := by
    rw [Cluster.act, start, h.member?]
    dsimp only
    split
    · next hd =>
        obtain rfl := (Prod.mk.inj hd).1
        exact hset
    · next hd =>
        obtain rfl := (Prod.mk.inj hd).1
        exact hset
  obtain ⟨σ', h', -⟩ := h.act hc (a := .start p .withdrawal) (by rintro P ⟨⟩)
  have hm : σ'.member = { σ.member with isCancelled := true } :=
    Option.some.inj (h'.member?.symm.trans hcancelled)
  exact h'.isWithdrawn_iff.2 (by rw [hm])

/-- Whatever becomes of the withdrawal, the member has been withdrawn. -/
theorem isWithdrawn_withdraw (hm : c.HasMember p) (hc : c.Tidy) :
    (c.withdraw p).1.Tidy ∧ (c.withdraw p).1.IsWithdrawn p := by
  have hwithdrawn := isWithdrawn_start hm hc
  obtain ⟨l, hl, -⟩ := hm
  have hend := evolves_withdraw hl
  exact ⟨hend.tidy (hc.act _), hwithdrawn.evolves (hc.act _) hend⟩

end Cluster

end ServiceMesh
