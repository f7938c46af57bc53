import ServiceMesh.Proofs.Application.Course
import ServiceMesh.Proofs.Lease.Loops

/-!
What an application leaves behind. Its node is registered when the registry is opened, before any
server is started, and only an application that was told to end withdraws it. One that ends early,
because a server did not start or was not ready or because the node was not registered once more,
leaves a member behind that keeps the node registered. A member whose withdrawal does not come back
has been withdrawn all the same.
-/

namespace ServiceMesh

namespace Application

open Lifecycle (Stage Action)

variable {a : Application} {detected : String} {r r' : Run}

/-- The store of the registry, if it is there before the registry is opened: the shared one for a
registry that the application brings along, or the remote one. -/
def standing? (a : Application) : Option Nat :=
  match a.own with
  | some _ => some 0
  | none =>
    match RegistryKind.choose a.config.registry with
    | .ok .remote => a.connection.toOption
    | _ => none

namespace Run

structure IsUp (r : Run) : Prop where
  isEnabled : r.isEnabled = true
  tidy : r.cluster.Tidy
  member : r.cluster.IsUp party

structure IsWithdrawn (r : Run) : Prop where
  isEnabled : r.isEnabled = true
  tidy : r.cluster.Tidy
  member : r.cluster.IsWithdrawn party

/-- An application at work whose registry is open or still to be opened: its store is there, unless
it will be a new one, and so is the member, if the registry is of use. -/
structure IsSound (r : Run) (a : Application) : Prop where
  tidy : r.cluster.Tidy
  stores : ∀ i ∈ a.standing?, i < r.cluster.stores.length
  member : r.isEnabled = true → r.cluster.IsUp party

/-- Time has passed for the application, and nothing was done from outside. -/
structure Passes (r r' : Run) : Prop where
  registry : r'.registry = r.registry
  cluster : r.cluster.Evolves r'.cluster

namespace Passes

theorem refl (r : Run) : r.Passes r := ⟨rfl, .refl⟩

theorem trans {r'' : Run} (h : r.Passes r') (h' : r'.Passes r'') : r.Passes r'' :=
  ⟨h'.registry.trans h.registry, h.cluster.trans h'.cluster⟩

theorem isEnabled (h : r.Passes r') : r'.isEnabled = r.isEnabled := by
  rw [Run.isEnabled, h.registry, Run.isEnabled]

end Passes

theorem passes_note (r : Run) (e : LogEntry) : r.Passes (r.note e) := ⟨rfl, .refl⟩

/-- Only an application with a registry of its own keeps a record of it. -/
theorem passes_noteIf (r : Run) (b : Bool) (e : LogEntry) :
    r.Passes (if b then r.note e else r) := by
  split
  · exact r.passes_note e
  · exact .refl r

theorem passes_wait (r : Run) (ms : Nat) : r.Passes (r.wait ms) :=
  ⟨rfl, Cluster.evolves_advance _ ms⟩

theorem IsUp.passes (h : r.IsUp) (hr : r.Passes r') : r'.IsUp where
  isEnabled := hr.isEnabled.trans h.isEnabled
  tidy := hr.cluster.tidy h.tidy
  member := h.member.evolves h.tidy hr.cluster

theorem IsWithdrawn.passes (h : r.IsWithdrawn) (hr : r.Passes r') : r'.IsWithdrawn where
  isEnabled := hr.isEnabled.trans h.isEnabled
  tidy := hr.cluster.tidy h.tidy
  member := h.member.evolves h.tidy hr.cluster

end Run

/-! ### Actions that only take their time -/

theorem passes_startServer (r : Run) (s : Server) : r.Passes (startServer r s).1 :=
  ((r.passes_note _).trans (Run.passes_wait _ _)).trans (Run.passes_note _ _)

theorem passes_stopServer (a : Application) (r : Run) (s : Server) :
    r.Passes (a.stopServer r s).1 := by
  have hnote := r.passes_note (.stopped s.name)
  rw [stopServer]
  split
  · exact (hnote.trans (Run.passes_wait _ _)).trans (Run.passes_note _ _)
  · exact hnote.trans (Run.passes_wait _ _)

theorem passes_probeServer (a : Application) (r : Run) (s : Server) :
    r.Passes (a.probeServer r s).1 := by
  rw [probeServer]
  split
  · exact .refl r
  · exact r.passes_wait _

theorem passes_serve (a : Application) (isWatched : Bool) (r : Run) :
    r.Passes (a.serve isWatched r) := by
  have hlooks (start : Nat) (l : List Nat) (r : Run) :
      r.Passes (l.foldl (fun r t => (r.wait (start + t - r.cluster.now)).note
        (.observed (r.wait (start + t - r.cluster.now)).directory.names
          (r.wait (start + t - r.cluster.now)).watchers)) r) := by
    induction l generalizing r with
    | nil => exact .refl r
    | cons t l ih => exact ((r.passes_wait _).trans (Run.passes_note _ _)).trans (ih _)
  exact (((r.passes_note _).trans (hlooks _ _ _)).trans (Run.passes_wait _ _)).trans
    (Run.passes_note _ _)

/-! ### The registry -/

/-- Registering once more, or being refused to, leaves the member up. -/
theorem passes_register (a : Application) (h : r.IsUp) : r.Passes (a.register r).1 := by
  have hcount : r.Passes { r with registrations := r.registrations + 1 } := ⟨rfl, .refl⟩
  have hpass := hcount.trans
    (Run.passes_noteIf _ a.own.isSome (.registration (r.registrations + 1)))
  rw [register]
  split
  · exact hpass
  · exact hpass.trans ⟨rfl, (h.passes hpass).member.evolves_register⟩

/-- The withdrawal reaches the registry, unless that refuses it. -/
theorem isWithdrawn_deregister (ha : a.own.bind (·.withdrawal) = none) (h : r.IsUp) :
    (a.deregister r).1.IsWithdrawn := by
  have hup := h.passes (r.passes_noteIf a.own.isSome .withdrawal)
  rw [deregister, if_neg (by simp [h.isEnabled]), ha]
  dsimp only
  obtain ⟨htidy, hwithdrawn⟩ := Cluster.isWithdrawn_withdraw hup.member.hasMember hup.tidy
  exact ⟨hup.isEnabled, htidy, hwithdrawn⟩

theorem passes_deregister (ha : a.own.bind (·.withdrawal) ≠ none) (r : Run) :
    r.Passes (a.deregister r).1 := by
  obtain ⟨f, hf⟩ := Option.ne_none_iff_exists'.1 ha
  rw [deregister]
  split
  · exact .refl r
  · rw [hf]
    exact r.passes_noteIf a.own.isSome .withdrawal

/-- The member of a registry that was created is on the store that was there, or on a new one. -/
theorem cluster_of_create (hr : a.create detected r = (r', .ok ())) :
    ∃ c store, r'.cluster = c.join party
        { node := a.config.registry.node detected, settings := .ofConfig a.config.registry }
        store a.config.notify.bus ∧
      (a.standing? = none ∧ c = r.cluster.addStore.1 ∧ store = r.cluster.stores.length ∨
        a.standing? = some store ∧ c = r.cluster) := by
  rw [create] at hr
  rw [standing?]
  cases hown : a.own with
  | none =>
      rw [hown, Cluster.create] at hr
      cases hkind : RegistryKind.choose a.config.registry with
      | error f =>
          rw [hkind] at hr
          cases (Prod.mk.inj hr).2
      | ok kind =>
          rw [hkind] at hr
          cases kind with
          | memory =>
              obtain ⟨rfl, -⟩ := Prod.mk.inj hr
              exact ⟨_, _, rfl, .inl ⟨rfl, rfl, rfl⟩⟩
          | remote =>
              cases hc : a.connection with
              | error reason =>
                  rw [hc] at hr
                  cases (Prod.mk.inj hr).2
              | ok store =>
                  rw [hc] at hr
                  obtain ⟨rfl, -⟩ := Prod.mk.inj hr
                  exact ⟨_, store, rfl, .inr ⟨rfl, rfl⟩⟩
  | some o =>
      rw [hown] at hr
      dsimp only at hr
      split at hr
      · cases (Prod.mk.inj hr).2
      · split at hr
        · cases (Prod.mk.inj hr).2
        · obtain ⟨rfl, -⟩ := Prod.mk.inj hr
          exact ⟨_, _, rfl, .inr ⟨rfl, rfl⟩⟩

/-- The member of a registry that has been opened is new. -/
theorem create_eq_ok (h : r.IsSound a) (hr : a.create detected r = (r', .ok ())) :
    r'.cluster.IsFresh party := by
  obtain ⟨c, store, hcluster, ⟨-, rfl, rfl⟩ | ⟨hstanding, rfl⟩⟩ := cluster_of_create hr
  · have hstore : r.cluster.stores.length < r.cluster.addStore.1.stores.length := by
      simp [Cluster.addStore]
    rw [hcluster]
    exact Cluster.isFresh_join (c := r.cluster.addStore.1) h.tidy hstore _ _ _
  · rw [hcluster]
    exact Cluster.isFresh_join h.tidy (h.stores store hstanding) _ _ _

/-- A registration that is not refused reaches the member. -/
theorem cluster_of_register (hr : a.register r = (r', .ok ())) :
    r'.cluster = (r.cluster.register party).1 := by
  have hnote (b : Bool) (e : LogEntry) (r : Run) :
      (if b then r.note e else r).cluster = r.cluster := by
    split <;> rfl
  rw [register] at hr
  split at hr
  · cases (Prod.mk.inj hr).2
  · obtain ⟨rfl, -⟩ := Prod.mk.inj hr
    exact congrArg (fun c => (c.register party).1) (hnote _ _ _)

/-- The first registration brings a new member up. -/
theorem register_eq_ok (h : r.cluster.IsFresh party) (hr : a.register r = (r', .ok ())) :
    r'.cluster.Tidy ∧ r'.cluster.IsUp party := by
  rw [cluster_of_register hr]
  exact Cluster.isUp_register h

/-- A registry that turns out to be of use was created, and the node was registered. -/
theorem exists_of_init (hopen : ¬r.registry.isSome = true)
    (he : (a.init detected r).isEnabled = true) :
    ∃ r₁ r₂, a.create detected r = (r₁, .ok ()) ∧ a.register r₁ = (r₂, .ok ()) ∧
      a.init detected r = { r₂ with registry := some true } := by
  have hdetached (r : Run) : (a.detach r).isEnabled = false := rfl
  rw [init, if_neg hopen] at he ⊢
  split at he
  · rw [hdetached] at he
    cases he
  · next hon =>
      rw [if_neg hon]
      split at he
      · rw [hdetached] at he
        cases he
      · next r₁ u hcreate =>
          split at he
          · rw [hdetached] at he
            cases he
          · next r₂ u' hregister => exact ⟨r₁, r₂, hcreate, hregister, rfl⟩

/-- Opening a registry that turns out to be of use brings the member up. -/
theorem isUp_init (h : r.IsSound a) (he : (a.init detected r).isEnabled = true) :
    (a.init detected r).IsUp := by
  by_cases hopen : r.registry.isSome = true
  · rw [init, if_pos hopen] at he ⊢
    exact ⟨he, h.tidy, h.member he⟩
  · obtain ⟨r₁, r₂, hcreate, hregister, hinit⟩ := exists_of_init hopen he
    obtain ⟨htidy, hup⟩ := register_eq_ok (create_eq_ok h hcreate) hregister
    rw [hinit]
    exact ⟨rfl, htidy, hup⟩

/-! ### The end -/

end Application

namespace Lifecycle.Stage

variable {p : Plan} {stage : Stage} {action : Action}

/-- The application was told to end, and the node was to be withdrawn. -/
def IsFarewell : Stage → Prop
  | stopping _ none => True
  | ended none => True
  | _ => False

@[simp] theorem isFarewell_starting (n : Nat) : (starting n).IsFarewell ↔ False := Iff.rfl

@[simp] theorem isFarewell_probing (n : Nat) : (probing n).IsFarewell ↔ False := Iff.rfl

@[simp] theorem isFarewell_registering : registering.IsFarewell ↔ False := Iff.rfl

@[simp] theorem isFarewell_serving : serving.IsFarewell ↔ False := Iff.rfl

@[simp] theorem isFarewell_withdrawing : withdrawing.IsFarewell ↔ False := Iff.rfl

@[simp] theorem isFarewell_stopping (left : Nat) (cause : Option Cause) :
    (stopping left cause).IsFarewell ↔ cause = none := by
  cases cause <;> simp [IsFarewell]

@[simp] theorem isFarewell_ended (cause : Option Cause) :
    (ended cause).IsFarewell ↔ cause = none := by
  cases cause <;> simp [IsFarewell]

@[simp] theorem isFarewell_stopFrom (left : Nat) (cause : Option Cause) :
    (stopFrom left cause).IsFarewell ↔ cause = none := by
  rw [stopFrom]
  split <;> simp

@[simp] theorem isFarewell_probeFrom (p : Plan) (n : Nat) :
    (probeFrom p n).IsFarewell ↔ False := by
  rw [probeFrom, afterProbes]
  split_ifs <;> simp

@[simp] theorem isFarewell_startFrom (p : Plan) (n : Nat) :
    (startFrom p n).IsFarewell ↔ False := by
  rw [startFrom]
  split <;> simp

/-- There is one way to the farewell, by way of the withdrawal. -/
theorem isFarewell_next (haction : stage.action? = some action) (result : Except Failure Unit) :
    (stage.next p result).IsFarewell ↔ action = .deregister ∨ stage.IsFarewell := by
  cases stage with
  | ended cause => cases haction
  | stopping left cause =>
      obtain rfl := Option.some.inj haction
      simp [next]
  | _ =>
      obtain rfl := Option.some.inj haction
      cases result <;> simp [next]

end Lifecycle.Stage

namespace Application

open Lifecycle (Stage Action)

variable {a : Application} {detected : String} {r r' : Run} {stage stage' : Stage}

def CanWithdraw (a : Application) : Prop := a.own.bind (·.withdrawal) = none

/-- What becomes of the member: it is up until the farewell, and after that if the registry refused
to withdraw it. -/
structure Holds (a : Application) (stage : Stage) (r : Run) : Prop where
  isWithdrawn : stage.IsFarewell ∧ a.CanWithdraw → r.IsWithdrawn
  isUp : ¬(stage.IsFarewell ∧ a.CanWithdraw) → r.IsUp

theorem Holds.passes (h : a.Holds stage r) (hs : stage'.IsFarewell ↔ stage.IsFarewell)
    (hr : r.Passes r') : a.Holds stage' r' := by
  constructor
  · rw [hs]
    exact fun hw => (h.isWithdrawn hw).passes hr
  · rw [hs]
    exact fun hw => (h.isUp hw).passes hr

/-- Every action but the withdrawal passes by the member. -/
theorem passes_perform {action : Action} (hup : action = .register → r.IsUp)
    (hd : action ≠ .deregister) (a : Application) (isWatched : Bool) :
    r.Passes (a.perform isWatched r action).1 := by
  cases action with
  | start i => exact passes_startServer r _
  | probe i => exact passes_probeServer a r _
  | register => exact passes_register a (hup rfl)
  | awaitShutdown => exact passes_serve a isWatched r
  | deregister => exact absurd rfl hd
  | stop i => exact passes_stopServer a r _

theorem Holds.next {p : Lifecycle.Plan} {isWatched : Bool} {action : Action}
    {result : Except Failure Unit} (haction : stage.action? = some action)
    (h : a.Holds stage r) :
    a.Holds (stage.next p result) (a.perform isWatched r action).1 := by
  have hnext := Stage.isFarewell_next (p := p) haction result
  have hbefore (hs : action = .register ∨ action = .deregister) : r.IsUp := by
    refine h.isUp fun hw => ?_
    cases stage with
    | stopping left cause =>
        obtain rfl := Option.some.inj haction
        rcases hs with hs | hs <;> cases hs
    | ended cause => cases haction
    | _ => exact hw.1
  by_cases hd : action = .deregister
  · subst hd
    have hup := hbefore (.inr rfl)
    constructor
    · exact fun hw => isWithdrawn_deregister hw.2 hup
    · intro hw
      have hrefused : ¬a.CanWithdraw := fun hc => hw ⟨hnext.2 (.inl rfl), hc⟩
      exact hup.passes (passes_deregister hrefused r)
  · refine h.passes ?_ (passes_perform (fun hs => hbefore (.inl hs)) hd a isWatched)
    rw [hnext]
    simp [hd]

/-- A registry that refuses to withdraw the node does so at once. -/
theorem canWithdraw_of_deregister (h : (a.deregister r).2 = none) : a.CanWithdraw := by
  rw [deregister] at h
  split at h
  · cases h
  · cases hrefuses : a.own.bind (·.withdrawal) with
    | none => exact hrefuses
    | some f =>
        rw [hrefuses] at h
        cases h

/-- What becomes of the member in the end: it has been withdrawn if nothing went wrong before that
and the registry did not refuse, and it is up if not. -/
structure Leaves (a : Application) (stage : Stage) (r : Run) : Prop where
  isWithdrawn : stage.cause? = none ∧ a.CanWithdraw → r.IsWithdrawn
  isUp : ¬(stage.cause? = none ∧ a.CanWithdraw) → r.IsUp

/-- Where the withdrawal does not come back, the member has been withdrawn all the same. -/
theorem Holds.leaves_of_stays {isWatched : Bool}
    (hstays : (a.perform isWatched r .deregister).2 = none) (h : a.Holds .withdrawing r) :
    a.Leaves .withdrawing (a.perform isWatched r .deregister).1 := by
  have hcan := canWithdraw_of_deregister hstays
  exact ⟨fun _ => isWithdrawn_deregister hcan (h.isUp fun hw => hw.1),
    fun hw => absurd ⟨rfl, hcan⟩ hw⟩

theorem Holds.leaves_of_ended {cause : Option Lifecycle.Cause} (h : a.Holds (.ended cause) r) :
    a.Leaves (.ended cause) r := by
  obtain ⟨hwithdrawn, hup⟩ := h
  rw [Stage.isFarewell_ended] at hwithdrawn hup
  exact ⟨hwithdrawn, hup⟩

/-- When an application whose registry is of use has come to its end, its node has been withdrawn if
it was told to end and the registry did not refuse that. It has been withdrawn, too, where the
application does not come to its end because the withdrawal does not come back. In every other case
its member is still up: nobody withdraws the node when the application ends early. -/
theorem withdrawn_at_end (h : r.IsSound a) (he : (a.init detected r).isEnabled = true) :
    ((a.runUntil detected r).2.cause? = none ∧ a.CanWithdraw →
      (a.runUntil detected r).1.cluster.IsWithdrawn party) ∧
    (¬((a.runUntil detected r).2.cause? = none ∧ a.CanWithdraw) →
      (a.runUntil detected r).1.cluster.IsUp party) := by
  have hup := isUp_init h he
  have hfirst (p : Lifecycle.Plan) : a.Holds (.first p) (a.init detected r) := by
    have hs : ¬(Stage.first p).IsFarewell := (Stage.isFarewell_startFrom p 0).1
    exact ⟨fun hw => absurd hw.1 hs, fun _ => hup⟩
  have hend : a.Leaves (a.runUntil detected r).2 (a.runUntil detected r).1 :=
    runUntil_ends (fun _ _ _ _ _ _ haction _ hr => hr.next haction)
      (fun _ _ hstays hr => hr.leaves_of_stays hstays) (fun _ _ hr => hr.leaves_of_ended) hfirst
  exact ⟨fun hw => (hend.isWithdrawn hw).member, fun hw => (hend.isUp hw).member⟩

/-- An application with one server, and a registry of its own on the shared store. -/
def lone (start : Job) : Application where
  config := { registry := {
    backend := "own"
    ip := some "10.0.0.1"
    serviceName := "svc-a"
    enable := true
    port := 9001 } }
  servers := [{ name := "server", start }]
  own := some { name := "own" }
  lifetime := 2500

def failing : Application := lone { failure := some (.internal "no port") }

theorem isSound_new (start : Job) : Run.IsSound {} (lone start) := by
  refine ⟨by decide, ?_, fun h => ?_⟩
  · rintro i ⟨⟩
    decide
  · cases h

/-- One application is told to end, and the server of the other does not start. -/
theorem withdrawn_at_end_lone :
    (Run.IsSound {} (lone {}) ∧ ((lone {}).init "" {}).isEnabled = true ∧
        ((lone {}).runUntil "" {}).2 = .ended none ∧
        ((lone {}).runUntil "" {}).1.cluster.IsWithdrawn party) ∧
      Run.IsSound {} failing ∧ (failing.init "" {}).isEnabled = true ∧
        (failing.runUntil "" {}).2.cause? ≠ none ∧
        (failing.runUntil "" {}).1.cluster.IsUp party := by
  have hon : ((lone {}).init "" {}).isEnabled = true := by decide +kernel
  have hend : ((lone {}).runUntil "" {}).2 = .ended none := by decide +kernel
  have hon' : (failing.init "" {}).isEnabled = true := by decide +kernel
  have hend' : (failing.runUntil "" {}).2.cause? ≠ none := by decide +kernel
  refine ⟨⟨isSound_new _, hon, hend, ?_⟩, isSound_new _, hon', hend', ?_⟩
  · exact (withdrawn_at_end (isSound_new _) hon).1 ⟨by rw [hend]; rfl, rfl⟩
  · exact (withdrawn_at_end (isSound_new _) hon').2 fun h => hend' h.1

/-- When its server has not started, the application ends with a member that has not been withdrawn.
Its node is not even there yet, but it will be. -/
theorem leftUp_failing :
    let c := (failing.runUntil "" {}).1.cluster
    let key := (Node.new "svc-a" "10.0.0.1" 9001).path
    (failing.runUntil "" {}).2 = .ended (some (.start 0 (.internal "no port"))) ∧
      c.isCancelled party = false ∧ c.shared.get? key = none ∧
      ((c.advance 1500).shared.get? key).isSome = true := by
  decide +kernel

end Application

end ServiceMesh
