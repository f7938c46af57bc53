import ServiceMesh.Proofs.Application.Order
import ServiceMesh.Proofs.Application.Withdrawal
import ServiceMesh.Proofs.Lease.FirstRound

/-!
When the record of an application gets into its store. The node is registered as soon as the
registry is opened, and the record is written one interval later. The servers take as long as they
take to start and to become ready, and the record does not wait for them.
-/

namespace ServiceMesh

namespace Lifecycle

variable {p : Plan} {stage : Stage} {action : Action}

def Cause.OfServer : Cause → Prop
  | .register _ => False
  | _ => True

def Action.OfServer : Action → Prop
  | .start _ | .probe _ | .stop _ => True
  | _ => False

namespace Stage

/-- Some server is not ready yet, or never will be. -/
def IsUnready : Stage → Prop
  | starting _ | probing _ => True
  | stopping _ (some cause) | ended (some cause) => cause.OfServer
  | _ => False

theorem isUnready_stopFrom {left : Nat} {cause : Cause} :
    (stopFrom left (some cause)).IsUnready ↔ cause.OfServer := by
  rw [stopFrom]
  split <;> rfl

theorem not_isUnready_stopFrom (left : Nat) : ¬(stopFrom left none).IsUnready := by
  rw [stopFrom]
  split <;> exact id

/-- As long as some server is not ready, everything that is done is done with a server. -/
theorem IsUnready.ofServer (h : stage.IsUnready) (ha : stage.action? = some action) :
    action.OfServer := by
  cases stage with
  | starting n | probing n | stopping n cause =>
      obtain rfl := Option.some.inj ha
      trivial
  | ended cause => cases ha
  | _ => exact h.elim

/-- Once all of them are ready, they have been ready for good. -/
theorem isUnready_of_next {result : Except Failure Unit}
    (h : (stage.next p result).IsUnready) : stage.IsUnready := by
  cases stage with
  | starting n => trivial
  | probing n => trivial
  | registering =>
      cases result with
      | ok u => exact h.elim
      | error f => exact isUnready_stopFrom.1 h
  | serving => exact h.elim
  | withdrawing => exact absurd h (not_isUnready_stopFrom _)
  | stopping left cause =>
      cases cause with
      | none => exact absurd h (not_isUnready_stopFrom _)
      | some cause => exact isUnready_stopFrom.1 h
  | ended cause => exact h

end Stage

end Lifecycle

namespace Application

open Lifecycle (Stage Action)

variable {a : Application} {detected : String} {r r' : Run} {stage : Stage} {action : Action}

def key (a : Application) (detected : String) : String := (a.config.registry.node detected).path

/-! ### The moments of a life -/

/-- How far a life has come that is led on some run. -/
inductive Reaches (a : Application) (detected : String) (r : Run) : Stage → Run → Prop
  | first : Reaches a detected r (.first (a.plan detected r)) (a.init detected r)
  | next {stage : Stage} {action : Action} {r' : Run} {result : Except Failure Unit}
      (h : Reaches a detected r stage r') (ha : stage.action? = some action)
      (hr : (a.perform r.registry.isSome r' action).2 = some result) :
      Reaches a detected r (stage.next (a.plan detected r) result)
        (a.perform r.registry.isSome r' action).1

/-- From there on the life goes on. -/
theorem Reaches.runUntil_eq (h : a.Reaches detected r stage r') :
    ∃ fuel, stage.Fits (a.plan detected r) ∧ stage.ahead (a.plan detected r) < fuel ∧
      a.runUntil detected r =
        a.walk (a.plan detected r) r.registry.isSome fuel stage r' := by
  induction h with
  | first => exact ⟨_, Stage.startFrom_fits _ 0, Stage.ahead_first_lt_fuel _, rfl⟩
  | next h ha hr ih =>
      obtain ⟨fuel, hfits, hfuel, hrun⟩ := ih
      cases fuel with
      | zero => omega
      | succ fuel =>
          rw [walk_succ ha hr] at hrun
          have hlt := Stage.ahead_next_lt hfits ha
          exact ⟨fuel, Stage.next_fits hfits _, Nat.lt_of_lt_of_le (hlt _) (by omega), hrun⟩

def lasting (a : Application) : Action → Nat
  | .start i => (a.servers.getD i default).start.lasts
  | .probe i =>
    match (a.servers.getD i default).address with
    | none => 0
    | some address =>
      (Readiness.probe (a.servers.getD i default).name address a.limits.readiness).1
  | .stop i => min (a.servers.getD i default).stop.lasts a.limits.shutdown
  | _ => 0

def begun (a : Application) (r : Run) : Action → Run
  | .start i => r.note (.started (a.servers.getD i default).name)
  | .stop i => r.note (.stopped (a.servers.getD i default).name)
  | _ => r

theorem cluster_wait_begun (a : Application) (r : Run) (action : Action) (ms : Nat) :
    ((a.begun r action).wait ms).cluster = r.cluster.advance ms := by
  cases action <;> rfl

/-- The moments at which some server of the application is not ready yet, or never will be, from
the opening of its registry on. The registry may have been opened some time before the life. -/
inductive Unready (a : Application) (detected : String) (r : Run) : Run → Prop
  | idle (ms : Nat) : Unready a detected r ((a.init detected r).wait ms)
  | between {r₀ r' : Run} {stage : Stage}
      (hr₀ : r₀ = r ∨ ∃ ms, r₀ = (a.init detected r).wait ms)
      (h : a.Reaches detected r₀ stage r') (hs : stage.IsUnready) : Unready a detected r r'
  | during {r₀ r' : Run} {stage : Stage} {action : Action} {ms : Nat}
      (hr₀ : r₀ = r ∨ ∃ ms, r₀ = (a.init detected r).wait ms)
      (h : a.Reaches detected r₀ stage r') (hs : stage.IsUnready)
      (ha : stage.action? = some action) (hms : ms ≤ a.lasting action) :
      Unready a detected r ((a.begun r' action).wait ms)

/-- Whatever is done with a server, the cluster sees nothing but time. -/
theorem cluster_perform (h : action.OfServer) (isWatched : Bool) :
    (a.perform isWatched r action).1.cluster = r.cluster ∨
      (a.perform isWatched r action).1.cluster = r.cluster.advance (a.lasting action) := by
  cases action with
  | start i => exact .inr rfl
  | probe i =>
      rw [perform, Prod.map_fst, id, probeServer, lasting]
      cases (a.servers.getD i default).address with
      | none => exact .inl rfl
      | some address => exact .inr rfl
  | stop i =>
      refine .inr ?_
      rw [perform, Prod.map_fst, id, stopServer, lasting]
      split
      · next hms =>
          rw [Nat.min_eq_left hms]
          rfl
      · next hms =>
          rw [Nat.min_eq_right (by omega)]
          rfl
  | _ => exact h.elim

/-! ### The record -/

/-- An application with its registry still to be opened. The place of its record is free: if the
store of the registry is there already, nobody else has a member in that place. -/
structure Run.IsClear (a : Application) (detected : String) (r : Run) : Prop where
  closed : r.registry = none
  tidy : r.cluster.Tidy
  stores : ∀ i ∈ a.standing?, i < r.cluster.stores.length
  hosted : ∀ q, ∀ l ∈ r.cluster.leased? q, l.store < r.cluster.stores.length
  tasks : ∀ t ∈ r.cluster.tasks, t.work.party = party → ∃ sink who, t.work = .follow party sink who
  apart : ∀ i ∈ a.standing?, ∀ q, q ≠ party → r.cluster.place? q ≠ some (i, a.key detected)
  absent : ∀ i ∈ a.standing?, (r.cluster.store i).get? (a.key detected) = none

/-- The member of a registry that was created is on its own in its place. -/
theorem lone_of_create (h : r.IsClear a detected) (hr : a.create detected r = (r', .ok ())) :
    ∃ store, r'.cluster.Lone party store (a.key detected) ∧
      r'.cluster.settings party = .ofConfig a.config.registry ∧
      r'.cluster.now = r.cluster.now := by
  obtain ⟨c, store, hcluster, ⟨-, rfl, rfl⟩ | ⟨hstanding, rfl⟩⟩ := cluster_of_create hr
  · -- nobody is on a new store, and there is nothing in it
    have hstore : r.cluster.stores.length < r.cluster.addStore.1.stores.length := by
      simp [Cluster.addStore]
    have hapart (q : String) (hq : q ≠ party) :
        r.cluster.addStore.1.place? q ≠ some (r.cluster.stores.length, a.key detected) := by
      intro hplace
      obtain ⟨l, hl, he⟩ := Option.map_eq_some_iff.1 hplace
      have hlt := h.hosted q l hl
      rw [(Prod.mk.inj he).1] at hlt
      exact Nat.lt_irrefl _ hlt
    have habsent :
        (r.cluster.addStore.1.store r.cluster.stores.length).get? (a.key detected) = none := by
      simp [Cluster.addStore, Cluster.store, Store.get?, Store.empty]
    rw [hcluster]
    obtain ⟨hlone, hsettings⟩ := Cluster.lone_join (c := r.cluster.addStore.1) h.tidy hstore
      (a.config.registry.node detected) (.ofConfig a.config.registry) a.config.notify.bus h.tasks
      hapart habsent
    exact ⟨_, hlone, hsettings, rfl⟩
  · rw [hcluster]
    obtain ⟨hlone, hsettings⟩ := Cluster.lone_join h.tidy (h.stores store hstanding)
      (a.config.registry.node detected) (.ofConfig a.config.registry) a.config.notify.bus h.tasks
      (h.apart store hstanding) (h.absent store hstanding)
    exact ⟨_, hlone, hsettings, rfl⟩

/-- One interval after the registry was opened, the record is due. -/
theorem atRest_init (h : r.IsClear a detected) (he : (a.init detected r).isEnabled = true) :
    ∃ store id, (a.init detected r).cluster.AtRest party store (a.key detected) id
      (r.cluster.now + 1000) := by
  obtain ⟨r₁, r₂, hcreate, hregister, hinit⟩ := exists_of_init (by simp [h.closed]) he
  obtain ⟨store, hlone, hsettings, hnow⟩ := lone_of_create h hcreate
  obtain ⟨id, hrest⟩ := hlone.atRest_register
  rw [hsettings, hnow] at hrest
  refine ⟨store, id, ?_⟩
  rw [hinit]
  dsimp only
  rw [cluster_of_register hregister]
  exact hrest

variable {store id due : Nat}

/-- A life that is led after the registry was opened begins with what is there. -/
theorem atRest_of_opened {r₀ : Run} (hr₀ : r₀ = r ∨ ∃ ms, r₀ = (a.init detected r).wait ms)
    (he : (a.init detected r).isEnabled = true)
    (h : (a.init detected r).cluster.AtRest party store (a.key detected) id due) :
    (a.init detected r₀).cluster.AtRest party store (a.key detected) id due := by
  rcases hr₀ with rfl | ⟨ms, rfl⟩
  · exact h
  · have hopen : ((a.init detected r).wait ms).registry.isSome = true := by
      rw [show ((a.init detected r).wait ms).registry = some true from of_decide_eq_true he]
      rfl
    rw [init, if_pos hopen]
    exact h.advance ms

/-- Nothing that is done with a server makes a difference to the record. -/
theorem Reaches.atRest {r₀ : Run} (h : a.Reaches detected r₀ stage r') (hs : stage.IsUnready)
    (hinit : (a.init detected r₀).cluster.AtRest party store (a.key detected) id due) :
    r'.cluster.AtRest party store (a.key detected) id due := by
  induction h with
  | first => exact hinit
  | next h ha hr ih =>
      have hbefore := Stage.isUnready_of_next hs
      have hrest := ih hbefore
      rcases cluster_perform (hbefore.ofServer ha) (a := a) r₀.registry.isSome with hc | hc
      · rw [hc]
        exact hrest
      · rw [hc]
        exact hrest.advance _

/-- As long as some server is not ready, the record is in the store from one interval after the
opening of the registry on, if the store is available, and not before that. How long the servers
take to start and to become ready, or to fail, does not matter. -/
theorem published_iff_of_unready (h : r.IsClear a detected)
    (he : (a.init detected r).isEnabled = true) (hr' : a.Unready detected r r') :
    (r'.cluster.storeOf party).get? (a.key detected) ≠ none ↔
      (r'.cluster.storeOf party).isAvailable = true ∧
        r.cluster.now + 1000 ≤ r'.cluster.now := by
  obtain ⟨store, id, hinit⟩ := atRest_init h he
  suffices hrest : r'.cluster.AtRest party store (a.key detected) id (r.cluster.now + 1000) from
    hrest.present_iff
  cases hr' with
  | idle ms => exact hinit.advance ms
  | between hr₀ h hs => exact h.atRest hs (atRest_of_opened hr₀ he hinit)
  | @during _ _ _ action ms hr₀ h hs ha hms =>
      rw [cluster_wait_begun]
      exact (h.atRest hs (atRest_of_opened hr₀ he hinit)).advance ms

def slow : Application := lone { lasts := 1500 }

/-- The start of its server, so many milliseconds in. -/
def slowStart (ms : Nat) : Run := (slow.begun (slow.init "" {}) (.start 0)).wait ms

theorem isClear_new : Run.IsClear slow "" {} where
  closed := rfl
  tidy := by decide
  stores := by
    rintro i ⟨⟩
    decide
  hosted := by rintro q l ⟨⟩
  tasks _ ht := absurd ht List.not_mem_nil
  apart := by rintro i - q - ⟨⟩
  absent := by
    rintro i ⟨⟩
    rfl

theorem isEnabled_slow : (slow.init "" {}).isEnabled = true := by decide +kernel

theorem unready_slowStart {ms : Nat} (hms : ms ≤ 1500) : slow.Unready "" {} (slowStart ms) :=
  .during (.inl rfl) .first trivial rfl hms

/-- Shortly before the server has started, the record has been due for a while. -/
theorem published_iff_of_unready_slow :
    Run.IsClear slow "" {} ∧ (slow.init "" {}).isEnabled = true ∧
      slow.Unready "" {} (slowStart 1400) ∧
      (((slowStart 1400).cluster.storeOf party).get? (slow.key "") ≠ none ↔
        ((slowStart 1400).cluster.storeOf party).isAvailable = true ∧
          1000 ≤ (slowStart 1400).cluster.now) := by
  have hon := isEnabled_slow
  have hmoment : slow.Unready "" {} (slowStart 1400) := unready_slowStart (by decide)
  exact ⟨isClear_new, hon, hmoment, published_iff_of_unready isClear_new hon hmoment⟩

/-- The record is in the shared store while the server is still being started. -/
theorem published_slowStart :
    slow.Unready "" {} (slowStart 1000) ∧
      (slowStart 999).cluster.shared.get? (slow.key "") = none ∧
      ((slowStart 1000).cluster.shared.get? (slow.key "")).isSome = true := by
  refine ⟨unready_slowStart (by decide), ?_, ?_⟩
  · decide +kernel
  · decide +kernel

end Application

end ServiceMesh
