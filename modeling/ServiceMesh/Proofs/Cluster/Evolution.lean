import ServiceMesh.Cluster.Control
import ServiceMesh.Proofs.Cluster.View

/-!
What happens in a cluster by itself. Between two things that are done from outside the tasks take
their steps and time passes. In whatever order they are let go on, it is a run of single acts, so
what every such act keeps is there again when the cluster has come to rest, when a time has gone by
and when a routine was waited for.
-/

namespace ServiceMesh.Cluster

/-- Nobody from outside has a hand in it: a task takes a step, or time passes. -/
def Act.IsOwn : Act → Prop
  | step _ => True
  | pass _ => True
  | _ => False

theorem Act.IsOwn.ne_join {a : Act} (h : a.IsOwn) (p : String) (P : Party) : a ≠ .join p P := by
  rintro rfl
  exact h

/-- The second cluster comes out of the first by itself. Clients may be told of something in
between. -/
inductive Evolves (c : Cluster) : Cluster → Prop where
  | refl : c.Evolves c
  | act {d : Cluster} (h : c.Evolves d) {a : Act} (ha : a.IsOwn) : c.Evolves (d.act a)
  | alike {d e : Cluster} (h : c.Evolves d) (he : d.Alike e) : c.Evolves e

variable {c d e : Cluster} {p : String}

theorem Evolves.trans (h : c.Evolves d) (h' : d.Evolves e) : c.Evolves e := by
  induction h' with
  | refl => exact h
  | act _ ha ih => exact ih.act ha
  | alike _ he ih => exact ih.alike he

/-! ### Letting tasks run -/

theorem evolves_stepTask {t : Task} (ht : c.task? t.id = some t) (h : c.stepTask t = some d) :
    c.Evolves d := by
  have hd : c.act (.step t.id) = d := by
    rw [Cluster.act, ht]
    dsimp only
    rw [h]
    rfl
  rw [← hd]
  exact Evolves.refl.act trivial

theorem evolves_runTask (id fuel : Nat) (c : Cluster) : c.Evolves (runTask id fuel c).1 := by
  induction fuel generalizing c with
  | zero => exact .refl
  | succ fuel ih =>
      rw [runTask]
      split
      · exact .refl
      · next t ht =>
          split
          · exact .refl
          · next d hd =>
              obtain rfl := id_of_task? ht
              exact (evolves_stepTask ht hd).trans (ih d)

theorem evolves_runRound (c : Cluster) (ids : List Nat) : c.Evolves (c.runRound ids).1 := by
  -- the round begins with the cluster as it is, its rest with any that came out of it
  suffices H : ∀ (ids : List Nat) (r : Cluster × Bool), c.Evolves r.1 →
      c.Evolves (ids.foldl (fun r id => ((r.1.runTask id patience).1,
        r.2 || (r.1.runTask id patience).2)) r).1 from H ids (c, false) .refl
  intro ids
  induction ids with
  | nil => exact fun r h => h
  | cons id ids ih => exact fun r h => ih _ (h.trans (evolves_runTask id patience r.1))

theorem evolves_settleRounds (fuel : Nat) (c : Cluster) : c.Evolves (settleRounds fuel c) := by
  induction fuel generalizing c with
  | zero => exact .refl
  | succ fuel ih =>
      have hround := c.evolves_runRound (c.tasks.map (·.id))
      rw [settleRounds]
      split
      · next hr =>
          rw [hr] at hround
          exact hround.trans (ih _)
      · next hr =>
          rw [hr] at hround
          exact hround

theorem alike_forwardAll (c : Cluster) : c.Alike c.forwardAll := by
  rw [forwardAll]
  refine alike_foldl (fun d r => ?_) _ c
  exact ⟨rfl, rfl, rfl, rfl, rfl⟩

theorem evolves_settle (c : Cluster) : c.Evolves c.settle :=
  (evolves_settleRounds patience c).alike (alike_forwardAll _)

/-! ### Letting time pass -/

theorem evolves_setNow {t : Nat} (h : c.now ≤ t) : c.Evolves { c with now := t } := by
  have ht : c.act (.pass (t - c.now)) = { c with now := t } := by
    rw [Cluster.act, Nat.add_sub_cancel' h]
  rw [← ht]
  exact Evolves.refl.act trivial

theorem lt_of_nextDue? {t : Nat} (h : c.nextDue? = some t) : c.now < t := by
  have hmem := (List.mem_filter.1 (List.min?_mem h)).2
  simpa using hmem

theorem evolves_waitLoop (done : Cluster → Bool) (limit fuel : Nat) (c : Cluster) :
    c.Evolves (waitLoop done limit fuel c) := by
  induction fuel generalizing c with
  | zero => exact .refl
  | succ fuel ih =>
      rw [waitLoop]
      have hlimit : c.Evolves { c with now := max c.now limit }.settle :=
        (evolves_setNow (Nat.le_max_left _ _)).trans (evolves_settle _)
      split
      · exact .refl
      · split
        · next t ht =>
            split
            · have hnow : c.Evolves { c with now := t } :=
                evolves_setNow (Nat.le_of_lt (lt_of_nextDue? ht))
              exact (hnow.trans (evolves_settle _)).trans (ih _)
            · exact hlimit
        · exact hlimit

theorem evolves_advance (c : Cluster) (ms : Nat) : c.Evolves (c.advance ms) :=
  (evolves_settle c).trans (evolves_waitLoop _ _ _ _)

theorem evolves_awaitTask (c : Cluster) (id limit : Nat) : c.Evolves (c.awaitTask id limit) :=
  (evolves_settle c).trans (evolves_waitLoop _ _ _ _)

/-! ### Registering and withdrawing -/

/-- A member that has not been withdrawn has its loops started, and they begin to run. -/
theorem register_of_leased {l : Leased} (hl : c.leased? p = some l)
    (hc : l.member.isCancelled = false) :
    c.register p = ((c.act (.register p)).settle, .ok ()) := by
  have hcancelled : c.isCancelled p = false := by
    rw [isCancelled, member?, hl]
    exact hc
  rw [leased?] at hl
  split at hl
  · next hp =>
      obtain rfl := Option.some.inj hl
      rw [register, hp, Cluster.act, hcancelled]
      dsimp only
      rw [hc]
      rfl
  · cases hl

/-- A withdrawal calls the store first. -/
theorem withdraw_eq {l : Leased} (hl : c.leased? p = some l) :
    let f := l.flight c.now .retire
    let d := c.act (.start p .withdrawal)
    d = ((c.setMember p l.member.deregister.1).spawn (.routine p (.call f))).1 ∧
      c.withdraw p =
        let e := (d.runTask c.nextTask patience).1.awaitTask c.nextTask f.deadline
        (e, e.outcome? c.nextTask) := by
  have hm : c.member? p = some l.member := by
    rw [member?, hl]
    rfl
  have hissue : (c.setMember p l.member.deregister.1).issue p l.member.deregister.2 =
      .inl (.call (l.flight c.now .retire)) := by
    rw [Member.deregister, issue, leased?_setMember_self hl, setMember_now]
    rfl
  have hstart : c.act (.start p .withdrawal) =
      ((c.setMember p l.member.deregister.1).spawn
        (.routine p (.call (l.flight c.now .retire)))).1 := by
    rw [Cluster.act, start, hm]
    dsimp only
    rw [Member.start, continueWith, hissue]
  have hid : ((c.setMember p l.member.deregister.1).spawn
      (.routine p (.call (l.flight c.now .retire)))).2 = c.nextTask := setMember_nextTask c p _
  refine ⟨hstart, ?_⟩
  rw [hstart, withdraw, hm]
  dsimp only
  rw [complete, hissue]
  dsimp only
  rw [hid]
  rfl

/-- The withdrawal of a member is started, and after that time passes. -/
theorem evolves_withdraw {l : Leased} (hl : c.leased? p = some l) :
    (c.act (.start p .withdrawal)).Evolves (c.withdraw p).1 := by
  rw [(withdraw_eq hl).2]
  exact (evolves_runTask _ _ _).trans (evolves_awaitTask _ _ _)

/-! ### What is kept -/

theorem Evolves.tidy (h : c.Evolves d) (hc : c.Tidy) : d.Tidy := by
  induction h with
  | refl => exact hc
  | act _ ha ih => exact ih.act _
  | alike _ he ih => exact ih.of_eq he.tasks he.nextTask

theorem tidy_register (h : c.Tidy) (p : String) : (c.register p).1.Tidy := by
  rw [register]
  split
  · split
    · exact h
    · exact (evolves_settle _).tidy (startLoops_tidy h p)
  · exact h
  · exact h

theorem tidy_withdraw (h : c.Tidy) (p : String) : (c.withdraw p).1.Tidy := by
  cases hl : c.leased? p with
  | some l => exact (evolves_withdraw hl).tidy (h.act _)
  | none =>
      rw [withdraw, member?, hl]
      exact h

theorem tidy_join (h : c.Tidy) (p : String) (m : Member) (store : Nat) (b : Bus) :
    (c.join p m store b).Tidy := h.of_eq rfl rfl

theorem tidy_create (h : c.Tidy) (p : String) (config : RegistryConfig) (detected : String)
    (b : Bus) (connection : Connection) : (c.create p config detected b connection).1.Tidy := by
  rw [create]
  split
  · exact h
  · next d store hd =>
      refine tidy_join ?_ p _ store b
      cases hkind : RegistryKind.choose config with
      | error f =>
          rw [hkind] at hd
          cases hd
      | ok kind =>
          rw [hkind] at hd
          cases kind with
          | memory =>
              obtain ⟨rfl, -⟩ := Prod.mk.inj (Except.ok.inj hd)
              exact h.of_eq rfl rfl
          | remote =>
              cases connection with
              | error reason => cases hd
              | ok i =>
                  obtain ⟨rfl, -⟩ := Prod.mk.inj (Except.ok.inj hd)
                  exact h

/-- What every step of a scene keeps that comes by itself is kept. -/
theorem Evolves.shows {Q : Scene → Prop}
    (hQ : ∀ {σ σ' : Scene} {a : Act}, a.IsOwn → σ.Step p a σ' → Q σ → Q σ')
    (h : c.Evolves d) (hc : c.Tidy) (hs : ∃ σ, c.Shows p σ ∧ Q σ) : ∃ σ, d.Shows p σ ∧ Q σ := by
  induction h with
  | refl => exact hs
  | @act d h a ha ih =>
      obtain ⟨σ, hσ, hq⟩ := ih
      obtain ⟨σ', hσ', hstep⟩ := hσ.act (h.tidy hc) (ha.ne_join p)
      exact ⟨σ', hσ', hQ ha hstep hq⟩
  | alike _ he ih =>
      obtain ⟨σ, hσ, hq⟩ := ih
      exact ⟨σ, hσ.of_alike he, hq⟩

end ServiceMesh.Cluster
