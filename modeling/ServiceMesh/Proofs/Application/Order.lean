import ServiceMesh.Proofs.Application.Opening
import ServiceMesh.Proofs.Application.Withdrawal
import ServiceMesh.Proofs.Lease.Farewell

/-!
The order in which an application does things. Its servers are started in their order up to the
first that does not start, and exactly those that were started are stopped in the end, in reverse
order, whatever comes of it. The node is withdrawn before that if the application was told to end.
A withdrawal that is held up at a full inbox does not come back; then no server is stopped. The log
of a run tells of the same starts and stops.
-/

namespace ServiceMesh

namespace Application

open Lifecycle (Stage Plan Action Deed Course Ends wellDone stops)

variable {a : Application} {p : Plan} {isWatched : Bool} {detected : String} {r : Run}
  {stage : Stage} {action : Action}

/-- What an application does from a stage on, and what comes of it. -/
def deeds (a : Application) (p : Plan) (isWatched : Bool) : Nat → Stage → Run → List Deed
  | 0, _, _ => []
  | fuel + 1, stage, r =>
    match stage.action? with
    | none => []
    | some action =>
      match a.perform isWatched r action with
      | (r, some result) =>
        (action, some result) :: a.deeds p isWatched fuel (stage.next p result) r
      | (_, none) => [(action, none)]

def plan (a : Application) (detected : String) (r : Run) : Plan where
  servers := a.servers.length
  checksReadiness := a.limits.checksReadiness
  isEnabled := (a.init detected r).isEnabled

def life (a : Application) (detected : String) (r : Run) : List Deed :=
  a.deeds (a.plan detected r) r.registry.isSome (Stage.fuel (a.plan detected r))
    (.first (a.plan detected r)) (a.init detected r)

theorem runUntil_eq (a : Application) (detected : String) (r : Run) :
    a.runUntil detected r =
      a.walk (a.plan detected r) r.registry.isSome (Stage.fuel (a.plan detected r))
        (.first (a.plan detected r)) (a.init detected r) := rfl

theorem deeds_succ (h : stage.action? = some action) {result : Except Failure Unit}
    (hr : (a.perform isWatched r action).2 = some result) (fuel : Nat) :
    a.deeds p isWatched (fuel + 1) stage r =
      (action, some result) ::
        a.deeds p isWatched fuel (stage.next p result) (a.perform isWatched r action).1 := by
  rw [deeds, h]
  dsimp only
  cases hp : a.perform isWatched r action with
  | mk r' outcome =>
      rw [hp] at hr
      obtain rfl : outcome = some result := hr
      rfl

theorem deeds_stays (h : stage.action? = some action)
    (hr : (a.perform isWatched r action).2 = none) (fuel : Nat) :
    a.deeds p isWatched (fuel + 1) stage r = [(action, none)] := by
  rw [deeds, h]
  dsimp only
  cases hp : a.perform isWatched r action with
  | mk r' outcome =>
      rw [hp] at hr
      obtain rfl : outcome = none := hr
      rfl

theorem deeds_ended (a : Application) (p : Plan) (isWatched : Bool) (fuel : Nat)
    (cause : Option Lifecycle.Cause) (r : Run) :
    a.deeds p isWatched fuel (.ended cause) r = [] := by
  cases fuel <;> rfl

/-- The actions done are those of the course of a life. -/
theorem course_deeds {fuel : Nat} (hfits : stage.Fits p) (hfuel : stage.ahead p < fuel) :
    Course p stage (a.deeds p isWatched fuel stage r) (a.walk p isWatched fuel stage r).2 := by
  induction fuel generalizing stage r with
  | zero => omega
  | succ fuel ih =>
      cases haction : stage.action? with
      | none =>
          cases stage with
          | ended cause =>
              rw [deeds_ended, walk_ended]
              exact .ended cause
          | _ => cases haction
      | some action =>
          cases hr : (a.perform isWatched r action).2 with
          | none =>
              rw [walk_stays haction hr, deeds_stays haction hr]
              obtain rfl := eq_deregister_of_perform hr
              obtain rfl := action?_eq_deregister haction
              exact .stays
          | some result =>
              have hlt := Stage.ahead_next_lt hfits haction result
              rw [walk_succ haction hr, deeds_succ haction hr]
              exact .step haction (ih (Stage.next_fits hfits _) (by omega))

/-- Nothing but what is done makes a difference to what the life ends with. -/
theorem walk_fst (a : Application) (p : Plan) (isWatched : Bool) (fuel : Nat) (stage : Stage)
    (r : Run) :
    (a.walk p isWatched fuel stage r).1 =
      (a.deeds p isWatched fuel stage r).foldl (fun r d => (a.perform isWatched r d.1).1) r := by
  induction fuel generalizing stage r with
  | zero => cases stage <;> rfl
  | succ fuel ih =>
      cases haction : stage.action? with
      | none =>
          cases stage with
          | ended cause => rfl
          | _ => cases haction
      | some action =>
          cases hr : (a.perform isWatched r action).2 with
          | none =>
              rw [walk_stays haction hr, deeds_stays haction hr]
              rfl
          | some result => rw [walk_succ haction hr, deeds_succ haction hr, ih, List.foldl_cons]

/-- What comes of an action is what its performance says. -/
theorem exists_perform_of_mem {fuel : Nat} {d : Deed}
    (h : d ∈ a.deeds p isWatched fuel stage r) :
    ∃ r', d.2 = (a.perform isWatched r' d.1).2 := by
  induction fuel generalizing stage r with
  | zero => cases h
  | succ fuel ih =>
      cases haction : stage.action? with
      | none => simp [deeds, haction] at h
      | some action =>
          cases hr : (a.perform isWatched r action).2 with
          | none =>
              rw [deeds_stays haction hr] at h
              obtain rfl := List.mem_singleton.1 h
              exact ⟨r, hr.symm⟩
          | some result =>
              rw [deeds_succ haction hr] at h
              rcases List.mem_cons.1 h with rfl | h
              · exact ⟨r, hr.symm⟩
              · exact ih h

/-! ### What is told of a life -/

inductive Call where
  | start (server : String)
  | stop (server : String)
  deriving DecidableEq, Repr

def LogEntry.call? : LogEntry → Option Call
  | .started s => some (.start s)
  | .stopped s => some (.stop s)
  | _ => none

def call? (a : Application) : Action → Option Call
  | .start i => some (.start (a.servers.getD i default).name)
  | .stop i => some (.stop (a.servers.getD i default).name)
  | _ => none

namespace Run

def calls (r : Run) : List Call := r.log.filterMap fun e => e.2.call?

theorem calls_note (r : Run) (e : LogEntry) : (r.note e).calls = r.calls ++ e.call?.toList := by
  rw [calls, note, List.filterMap_append]
  cases h : e.call? <;> simp [h, calls]

theorem calls_noteIf (r : Run) (b : Bool) {e : LogEntry} (h : e.call? = none) :
    (if b then r.note e else r).calls = r.calls := by
  split
  · rw [calls_note, h, Option.toList_none, List.append_nil]
  · rfl

@[simp] theorem calls_wait (r : Run) (ms : Nat) : (r.wait ms).calls = r.calls := rfl

end Run

theorem calls_register (a : Application) (r : Run) : (a.register r).1.calls = r.calls := by
  have hnote := Run.calls_noteIf { r with registrations := r.registrations + 1 } a.own.isSome
    (e := .registration (r.registrations + 1)) rfl
  rw [register]
  split
  · exact hnote
  · exact hnote

theorem calls_create (a : Application) (detected : String) (r : Run) :
    (a.create detected r).1.calls = r.calls := by
  rw [create]
  split
  · rfl
  · split
    · rfl
    · have hnote := r.calls_note .constructed
      dsimp only
      split
      · exact hnote.trans (List.append_nil _)
      · exact hnote.trans (List.append_nil _)

theorem calls_init (a : Application) (detected : String) (r : Run) :
    (a.init detected r).calls = r.calls := by
  have hcreate := a.calls_create detected r
  rw [init]
  split
  · rfl
  · split
    · rfl
    · split
      · next h => rwa [h] at hcreate
      · next r' u h =>
          rw [h] at hcreate
          have hregister := (a.calls_register r').trans hcreate
          split
          · next h => rwa [h] at hregister
          · next h => rwa [h] at hregister

theorem calls_deregister (a : Application) (r : Run) : (a.deregister r).1.calls = r.calls := by
  have hnote := r.calls_noteIf a.own.isSome (e := .withdrawal) rfl
  rw [deregister]
  split
  · rfl
  · cases a.own.bind (·.withdrawal) with
    | some f => exact hnote
    | none => exact hnote

theorem calls_serve (a : Application) (isWatched : Bool) (r : Run) :
    (a.serve isWatched r).calls = r.calls := by
  have hlooks (start : Nat) (l : List Nat) (r : Run) :
      (l.foldl (fun r t => (r.wait (start + t - r.cluster.now)).note
        (.observed (r.wait (start + t - r.cluster.now)).directory.names
          (r.wait (start + t - r.cluster.now)).watchers)) r).calls = r.calls := by
    induction l generalizing r with
    | nil => rfl
    | cons t l ih =>
        rw [List.foldl_cons, ih, Run.calls_note, Run.calls_wait]
        exact List.append_nil _
  have hrunning : (r.note .running).calls = r.calls :=
    (r.calls_note .running).trans (List.append_nil _)
  have hend := (hlooks r.cluster.now (if isWatched then a.observations else []) _).trans hrunning
  exact (Run.calls_note _ .shutdown).trans ((List.append_nil _).trans hend)

/-- The log tells of every call, and of no other. -/
theorem calls_perform (a : Application) (isWatched : Bool) (r : Run) (action : Action) :
    (a.perform isWatched r action).1.calls = r.calls ++ (a.call? action).toList := by
  cases action with
  | start i =>
      rw [perform, Prod.map_fst, id, startServer, Run.calls_note, Run.calls_wait, Run.calls_note]
      exact List.append_nil _
  | stop i =>
      rw [perform, Prod.map_fst, id, stopServer]
      split
      · rw [Run.calls_note, Run.calls_wait, Run.calls_note]
        exact List.append_nil _
      · rw [Run.calls_wait, Run.calls_note]
        rfl
  | probe i =>
      rw [perform, Prod.map_fst, id, probeServer]
      split
      · exact (List.append_nil _).symm
      · exact (List.append_nil _).symm
  | register => exact (a.calls_register r).trans (List.append_nil _).symm
  | awaitShutdown => exact (a.calls_serve isWatched r).trans (List.append_nil _).symm
  | deregister => exact (a.calls_deregister r).trans (List.append_nil _).symm

theorem calls_foldl (a : Application) (isWatched : Bool) (ds : List Deed) (r : Run) :
    (ds.foldl (fun r d => (a.perform isWatched r d.1).1) r).calls =
      r.calls ++ ds.filterMap fun d => a.call? d.1 := by
  induction ds generalizing r with
  | nil => simp
  | cons d ds ih =>
      rw [List.foldl_cons, ih, calls_perform, List.append_assoc, List.filterMap_cons]
      cases a.call? d.1 <;> rfl

/-! ### A withdrawal that does not come back -/

theorem tidy_register (h : r.cluster.Tidy) : (a.register r).1.cluster.Tidy := by
  have hnoted : (if a.own.isSome then
      { r with registrations := r.registrations + 1 }.note (.registration (r.registrations + 1))
        else { r with registrations := r.registrations + 1 }).cluster.Tidy := by
    split <;> exact h
  rw [register]
  split
  · exact hnoted
  · exact Cluster.tidy_register hnoted party

theorem tidy_create (h : r.cluster.Tidy) (detected : String) :
    (a.create detected r).1.cluster.Tidy := by
  rw [create]
  split
  · exact Cluster.tidy_create h party _ _ _ _
  · split
    · exact h
    · dsimp only
      split
      · exact h
      · exact Cluster.tidy_join (c := r.cluster) h party _ 0 _

theorem tidy_init (h : r.cluster.Tidy) (detected : String) :
    (a.init detected r).cluster.Tidy := by
  have hdetach {r : Run} (h : r.cluster.Tidy) : (a.detach r).cluster.Tidy := h.of_eq rfl rfl
  have hcreate := tidy_create (a := a) h detected
  rw [init]
  split
  · exact h
  · split
    · exact hdetach h
    · split
      · next r' f hr =>
          rw [hr] at hcreate
          exact hdetach hcreate
      · next r' u hr =>
          rw [hr] at hcreate
          have hregister := tidy_register (a := a) hcreate
          split
          · next hr =>
              rw [hr] at hregister
              exact hdetach hregister
          · next hr =>
              rw [hr] at hregister
              exact hregister

theorem tidy_deregister (h : r.cluster.Tidy) : (a.deregister r).1.cluster.Tidy := by
  have hnoted := (r.passes_noteIf a.own.isSome .withdrawal).cluster.tidy h
  rw [deregister]
  split
  · exact h
  · cases a.own.bind (·.withdrawal) with
    | some f => exact hnoted
    | none => exact Cluster.tidy_withdraw hnoted party

theorem tidy_perform (h : r.cluster.Tidy) (isWatched : Bool) (action : Action) :
    (a.perform isWatched r action).1.cluster.Tidy := by
  cases action with
  | start i => exact (passes_startServer r _).cluster.tidy h
  | probe i => exact (passes_probeServer a r _).cluster.tidy h
  | register => exact tidy_register h
  | awaitShutdown => exact (passes_serve a isWatched r).cluster.tidy h
  | deregister => exact tidy_deregister h
  | stop i => exact (passes_stopServer a r _).cluster.tidy h

theorem heldUp_of_deregister (h : r.cluster.Tidy) (hstays : (a.deregister r).2 = none) :
    ∃ id, (a.deregister r).1.cluster.HeldUp party id := by
  have hnoted := (r.passes_noteIf a.own.isSome .withdrawal).cluster.tidy h
  rw [deregister] at hstays ⊢
  split
  · next hoff =>
      rw [if_pos hoff] at hstays
      cases hstays
  · next hon =>
      rw [if_neg hon] at hstays
      cases hrefuses : a.own.bind (·.withdrawal) with
      | some f =>
          rw [hrefuses] at hstays
          cases hstays
      | none =>
          rw [hrefuses] at hstays
          exact ⟨_, Cluster.heldUp_of_withdraw hnoted hstays⟩

/-- A life that does not get past its withdrawal is held up there. -/
theorem heldUp_of_withdrawing (h : r.cluster.Tidy)
    (hlast : (a.runUntil detected r).2 = .withdrawing) :
    ∃ id, (a.runUntil detected r).1.cluster.HeldUp party id :=
  runUntil_ends (I := fun _ r => r.cluster.Tidy)
    (J := fun stage r => stage = .withdrawing → ∃ id, r.cluster.HeldUp party id)
    (fun _ isWatched _ action _ _ _ _ h => tidy_perform h isWatched action)
    (fun _ _ hstays h _ => heldUp_of_deregister h hstays) (fun _ _ _ => nofun)
    (fun _ => tidy_init h detected) hlast

/-! ### The order of a life -/

/-- The place of the first server that does not start, behind the last one if all of them start. -/
def firstFailing (a : Application) : Nat := a.servers.findIdx fun s => s.start.failure.isSome

/-- The actions of a life are done in order. -/
structure InOrder (a : Application) (detected : String) (r : Run) : Prop where
  /-- The servers are started one after the other up to the first that does not start, and no other
  is. -/
  starts : (a.life detected r).filterMap (fun d => d.1.started?) =
    List.range (min (a.firstFailing + 1) a.servers.length)
  /-- The life ends, or it stays with its withdrawal. -/
  last : (a.runUntil detected r).2 = .withdrawing ∨
    ∃ cause, (a.runUntil detected r).2 = .ended cause
  /-- In the end exactly those that were started are stopped, each of them once and the last one
  first. -/
  stops : (a.runUntil detected r).2 ≠ .withdrawing →
    (a.life detected r).filterMap (fun d => d.1.stopped?) = (List.range a.firstFailing).reverse
  /-- An application that was told to end had done its opening without a failure, and the node was
  withdrawn before the first server was stopped. -/
  told : (a.runUntil detected r).2 = .ended none → ∃ before result result' after,
    a.life detected r =
        before ++ (.awaitShutdown, some result) :: (.deregister, some result') :: after ∧
      Lifecycle.Parts (a.plan detected r) before after
  /-- A life stays with its withdrawal only if that does not come back. It had been told to end, and
  no server is stopped. -/
  stays : (a.runUntil detected r).2 = .withdrawing → ∃ before result,
    a.life detected r = before ++ [(.awaitShutdown, some result), (.deregister, none)] ∧
      Lifecycle.Parts (a.plan detected r) before []
  /-- Nothing but an inbox without room keeps the withdrawal from coming back. -/
  heldUp : r.cluster.Tidy → (a.runUntil detected r).2 = .withdrawing →
    ∃ id, (a.runUntil detected r).1.cluster.HeldUp party id
  /-- An application that ends early does so for the first thing that fails in its opening. -/
  early : ∀ cause, (a.runUntil detected r).2 = .ended (some cause) → ∃ before action f after,
    a.life detected r = before ++ (action, some (.error f)) :: after ∧
      action ∈ (a.plan detected r).opening ∧ action.cause f = some cause ∧
      Lifecycle.Parts (a.plan detected r) before after
  /-- It ends early exactly when a server was not started or not ready or when the node was not
  registered. -/
  ends_early_iff : (∃ cause, (a.runUntil detected r).2 = .ended (some cause)) ↔
    ∃ d ∈ a.life detected r, d.1.IsOpening ∧ d.2 ≠ some (.ok ())
  /-- An application whose registry is of no use does not register, and that is no failure. -/
  detached : (a.init detected r).isEnabled = false → ∀ d ∈ a.life detected r, d.1 ≠ .register
  /-- The log tells of these starts and stops in their order. -/
  logged : (a.runUntil detected r).1.calls =
    r.calls ++ (a.life detected r).filterMap fun d => a.call? d.1

theorem ends_life (a : Application) (detected : String) (r : Run) :
    Ends (a.plan detected r) (a.plan detected r).opening 0 (a.life detected r)
      (a.runUntil detected r).2 :=
  (course_deeds (Stage.startFrom_fits _ 0) (Stage.ahead_first_lt_fuel _)).ends

/-- A server was started or was not, as its own start says. -/
theorem start_of_mem {i : Nat} {result : Option (Except Failure Unit)}
    (h : (.start i, result) ∈ a.life detected r) :
    result = some (a.servers.getD i default).start.result := by
  obtain ⟨r', hr'⟩ := exists_perform_of_mem h
  exact hr'

theorem isSome_failure_iff {j : Job} : j.failure.isSome = true ↔ j.result ≠ .ok () := by
  rw [Job.result]
  cases j.failure <;> simp

/-- If the servers before a place start, and the one there does not or there is none, the place is
that of the first server that does not start. -/
theorem firstFailing_eq {n : Nat} (hn : n ≤ a.servers.length)
    (hbefore : ∀ i < n, (a.servers.getD i default).start.result = .ok ())
    (hat : n < a.servers.length → (a.servers.getD n default).start.result ≠ .ok ()) :
    a.firstFailing = n := by
  have hget {i : Nat} (hi : i < a.servers.length) :
      a.servers.getD i default = a.servers[i] := by
    rw [List.getD_eq_getElem?_getD, List.getElem?_eq_getElem hi, Option.getD_some]
  rcases Nat.lt_or_eq_of_le hn with hlt | rfl
  · rw [firstFailing, List.findIdx_eq hlt]
    refine ⟨isSome_failure_iff.2 (hget hlt ▸ hat hlt), fun j hj => ?_⟩
    have hok := hbefore j hj
    rw [hget (by omega)] at hok
    exact Bool.eq_false_iff.2 fun h => isSome_failure_iff.1 h hok
  · rw [firstFailing, List.findIdx_eq_length]
    intro s hs
    obtain ⟨i, hi, rfl⟩ := List.mem_iff_getElem.1 hs
    have hok := hbefore i hi
    rw [hget hi] at hok
    exact Bool.eq_false_iff.2 fun h => isSome_failure_iff.1 h hok

/-- The life of an application is in order, whatever comes of its actions. -/
theorem life_inOrder (a : Application) (detected : String) (r : Run) : a.InOrder detected r := by
  have hends := a.ends_life detected r
  obtain ⟨n, hn, hstarts, hstops, hbefore, hat⟩ := hends.servers
  have hfirst : a.firstFailing = n := by
    refine firstFailing_eq hn
      (fun i hi => (Option.some.inj (start_of_mem (hbefore i hi))).symm) fun hlt => ?_
    obtain ⟨f, hf⟩ := hat hlt
    rw [← Option.some.inj (start_of_mem hf)]
    exact nofun
  exact {
    starts := hfirst ▸ hstarts
    last := hends.last_eq
    stops := hfirst ▸ hstops
    told := fun hlast => (hlast ▸ hends).of_none
    stays := fun hlast => (hlast ▸ hends).of_withdrawing
    heldUp := heldUp_of_withdrawing
    early := fun cause hlast => (hlast ▸ hends).of_some
    ends_early_iff := hends.ends_early_iff
    detached := fun hoff d hd hregister => by
      have hmem := (hends.mem_opening hd (hregister ▸ trivial)).1
      have hon := Lifecycle.isEnabled_of_mem (hregister ▸ hmem)
      cases hon.symm.trans hoff
    logged := by
      rw [runUntil_eq, walk_fst, calls_foldl, calls_init]
      rfl }

/-- Somebody watches the registry of the application and does not empty its inbox, which is full. -/
def crowded : Run :=
  let r := (lone {}).init "" {}
  { r with cluster := ((r.cluster.subscribe party "inbox" (some 1)).notify party 50).1 }

/-- The server was started, and the application was told to end. But the withdrawal never comes
back, and the server is not stopped. -/
theorem not_stopped_crowded :
    let a := lone {}
    let c := (a.runUntil "" crowded).1.cluster
    a.life "" crowded = [(.start 0, some (.ok ())), (.probe 0, some (.ok ())),
        (.register, some (.ok ())), (.awaitShutdown, some (.ok ())), (.deregister, none)] ∧
      (a.runUntil "" crowded).2 = .withdrawing ∧
      ∃ id n, ∀ ms, (c.advance ms).task? id =
        some ⟨id, .routine party (.notice n .finished)⟩ := by
  intro a c
  have hlast : (a.runUntil "" crowded).2 = .withdrawing := by decide +kernel
  have hstuck : c.Stuck := by decide +kernel
  have htidy : crowded.cluster.Tidy := by decide +kernel
  obtain ⟨id, d, n, n', -, -, -, htask⟩ := heldUp_of_withdrawing htidy hlast
  refine ⟨by decide +kernel, hlast, id, n', fun ms => ?_⟩
  rw [Cluster.task?, (hstuck.advance ms).1]
  exact htask

/-- The second of three servers does not start. -/
example :
    let servers := [{ name := "a" }, { name := "b", start := { failure := some .withdrawn } },
      { name := "c" }]
    (({ config := {}, servers } : Application).runUntil "" {}).1.calls =
      [.start "a", .start "b", .stop "a"] := by
  decide +kernel

end Application

end ServiceMesh
