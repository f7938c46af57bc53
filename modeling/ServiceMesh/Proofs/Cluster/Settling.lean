import ServiceMesh.Proofs.Cluster.Evolution
import ServiceMesh.Proofs.Cluster.Footprint

/-!
What is there when a cluster has come to rest. Whatever every step of a task keeps is still there
then, and in the first round every task of the line has its turn. No time passes before the cluster
is at rest, so while time passes it goes from rest to rest.
-/

namespace ServiceMesh.Cluster

variable {c d : Cluster} {I : Cluster → Prop}

/-- Kept by whatever happens at one moment: tasks take their steps, and clients are told. -/
structure Lasts (I : Cluster → Prop) : Prop where
  step : ∀ {c d : Cluster} {t : Task}, c.task? t.id = some t → c.stepTask t = some d → I c → I d
  alike : ∀ {c d : Cluster}, c.Alike d → d.outcomes = c.outcomes → I c → I d

theorem outcomes_forwardAll (c : Cluster) : c.forwardAll.outcomes = c.outcomes := by
  rw [forwardAll]
  generalize c.resolvers.entries = rs
  induction rs generalizing c with
  | nil => rfl
  | cons r rs ih =>
      rw [List.foldl_cons, ih]

theorem runTask_succ {t : Task} (ht : c.task? t.id = some t) (hd : c.stepTask t = some d)
    (fuel : Nat) : (runTask t.id (fuel + 1) c).1 = (runTask t.id fuel d).1 := by
  rw [runTask, ht]
  dsimp only
  rw [hd]

/-- What the steps of one task keep is kept when it has its turn. -/
theorem runTask_keeps {id : Nat}
    (hstep : ∀ {c d : Cluster} {t : Task}, t.id = id → c.task? t.id = some t →
      c.stepTask t = some d → I c → I d) (fuel : Nat) (h : I c) : I (runTask id fuel c).1 := by
  induction fuel generalizing c with
  | zero => exact h
  | succ fuel ih =>
      cases ht : c.task? id with
      | none =>
          rw [runTask, ht]
          exact h
      | some t =>
          obtain rfl := id_of_task? ht
          cases hd : c.stepTask t with
          | none =>
              rw [runTask, ht]
              dsimp only
              rw [hd]
              exact h
          | some d =>
              rw [runTask_succ ht hd]
              exact ih (hstep rfl ht hd h)

theorem runRound_fst (c : Cluster) (ids : List Nat) :
    (c.runRound ids).1 = ids.foldl (fun c id => (runTask id patience c).1) c := by
  suffices H : ∀ r : Cluster × Bool, (ids.foldl (fun r id => ((r.1.runTask id patience).1,
      r.2 || (r.1.runTask id patience).2)) r).1 =
      ids.foldl (fun c id => (runTask id patience c).1) r.1 from H (c, false)
  induction ids with
  | nil => exact fun _ => rfl
  | cons id ids ih => exact fun r => ih _

theorem foldl_runTask_keeps {ids : List Nat}
    (hstep : ∀ {c d : Cluster} {t : Task}, t.id ∈ ids → c.task? t.id = some t →
      c.stepTask t = some d → I c → I d) (h : I c) :
    I (ids.foldl (fun c id => (runTask id patience c).1) c) := by
  induction ids generalizing c with
  | nil => exact h
  | cons id ids ih =>
      refine ih (fun ht => hstep (List.mem_cons_of_mem _ ht)) ?_
      exact runTask_keeps (fun ht => hstep (ht ▸ List.mem_cons_self)) patience h

/-- A task of the line has its turn in the first round: what the tasks before it keep holds at its
turn, and what is kept from then on holds in the end. -/
theorem runRound_turn {I J : Cluster → Prop} {id : Nat} {ids : List Nat} (hid : id ∈ ids)
    (hbefore : ∀ {c d : Cluster} {t : Task}, t.id ≠ id → c.task? t.id = some t →
      c.stepTask t = some d → I c → I d)
    (hturn : ∀ {c : Cluster}, I c → J (runTask id patience c).1) (hafter : Lasts J) (h : I c) :
    J (c.runRound ids).1 := by
  obtain ⟨before, after, rfl, hnot⟩ := List.eq_append_cons_of_mem hid
  rw [runRound_fst, List.foldl_append, List.foldl_cons]
  refine foldl_runTask_keeps (fun _ => hafter.step) (hturn ?_)
  exact foldl_runTask_keeps (fun ht => hbefore fun he => hnot (he ▸ ht)) h

namespace Lasts

theorem runTask (hI : Lasts I) (id fuel : Nat) (h : I c) : I (runTask id fuel c).1 :=
  runTask_keeps (fun _ => hI.step) fuel h

theorem runRound (hI : Lasts I) (ids : List Nat) (h : I c) : I (c.runRound ids).1 := by
  rw [runRound_fst]
  exact foldl_runTask_keeps (fun _ => hI.step) h

theorem settleRounds (hI : Lasts I) (fuel : Nat) (h : I c) : I (settleRounds fuel c) := by
  induction fuel generalizing c with
  | zero => exact h
  | succ fuel ih =>
      have hround := hI.runRound (c.tasks.map (·.id)) h
      rw [Cluster.settleRounds]
      split
      · next hr => exact ih (by rwa [hr] at hround)
      · next hr => rwa [hr] at hround

theorem settle (hI : Lasts I) (h : I c) : I c.settle :=
  hI.alike (alike_forwardAll _) (outcomes_forwardAll _) (hI.settleRounds patience h)

/-- What holds after the first round and is kept holds at rest. -/
theorem settle_of_runRound (hI : Lasts I) (h : I (c.runRound (c.tasks.map (·.id))).1) :
    I c.settle := by
  obtain ⟨fuel, hfuel⟩ : ∃ fuel, patience = fuel + 1 := ⟨9999999, rfl⟩
  refine hI.alike (alike_forwardAll _) (outcomes_forwardAll _) ?_
  rw [hfuel, Cluster.settleRounds]
  split
  · next hr => exact hI.settleRounds fuel (by rwa [hr] at h)
  · next hr => rwa [hr] at h

end Lasts

/-- What holds at rest whenever time has passed, whatever it was before, holds as time goes on. -/
theorem waitLoop_keeps (hI : ∀ {c : Cluster} {t : Nat}, c.now ≤ t → I c →
    I { c with now := t }.settle) (done : Cluster → Bool) (limit fuel : Nat) (h : I c) :
    I (waitLoop done limit fuel c) := by
  induction fuel generalizing c with
  | zero => exact h
  | succ fuel ih =>
      have hlimit := hI (Nat.le_max_left c.now limit) h
      rw [waitLoop]
      split
      · exact h
      · split
        · next t ht =>
            split
            · exact ih (hI (Nat.le_of_lt (lt_of_nextDue? ht)) h)
            · exact hlimit
        · exact hlimit

theorem advance_keeps (hI : ∀ {c : Cluster} {t : Nat}, c.now ≤ t → I c →
    I { c with now := t }.settle) (ms : Nat) (h : I c) : I (c.advance ms) :=
  waitLoop_keeps hI _ _ _ (hI (Nat.le_refl c.now) h)

/-! ### No time -/

/-- What happens at one moment takes no time. -/
theorem lasts_now (t : Nat) : Lasts fun c => c.now = t where
  step := by
    intro c d t' _ hd hc
    obtain ⟨e, w, rfl, -, hspares, -⟩ := stepTask_eq_some hd
    obtain ⟨q, hq⟩ := exists_ne_party t'.work.party
    exact (hspares q hq).now.trans hc
  alike h _ hc := h.now.trans hc

@[simp] theorem settle_now (c : Cluster) : c.settle.now = c.now := (lasts_now c.now).settle rfl

end ServiceMesh.Cluster
