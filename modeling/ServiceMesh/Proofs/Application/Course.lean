import Mathlib.Tactic.Common
import ServiceMesh.Application.Run

/-!
The course of a life. Every action that comes back brings it nearer to its end, so the steps that
are allowed for always suffice, and what holds at the beginning and is kept by every action holds at
the end, or where a withdrawal that does not come back has left the life.
-/

namespace ServiceMesh

namespace Lifecycle.Stage

variable {p : Plan} {stage : Stage} {action : Action}

/-- The stage speaks of servers that there are. -/
def Fits (p : Plan) : Stage → Prop
  | starting next => next < p.servers
  | probing next => next < p.servers
  | stopping left _ => 0 < left ∧ left ≤ p.servers
  | _ => True

/-- How many actions can follow at most. -/
def ahead (p : Plan) : Stage → Nat
  | starting next => p.servers - next + (2 * p.servers + 3)
  | probing next => p.servers - next + (p.servers + 3)
  | registering => p.servers + 3
  | serving => p.servers + 2
  | withdrawing => p.servers + 1
  | stopping left _ => left
  | ended _ => 0

theorem afterProbes_fits (p : Plan) : (afterProbes p).Fits p := by
  rw [afterProbes]
  split <;> trivial

theorem ahead_afterProbes_le (p : Plan) : (afterProbes p).ahead p ≤ p.servers + 3 := by
  rw [afterProbes]
  split
  · exact Nat.le_refl _
  · exact Nat.le_succ _

theorem probeFrom_fits (p : Plan) (next : Nat) : (probeFrom p next).Fits p := by
  rw [probeFrom]
  split
  · next h => exact h.2
  · exact afterProbes_fits p

theorem ahead_probeFrom_le (p : Plan) (next : Nat) :
    (probeFrom p next).ahead p ≤ p.servers - next + (p.servers + 3) := by
  rw [probeFrom]
  split
  · exact Nat.le_refl _
  · exact Nat.le_trans (ahead_afterProbes_le p) (Nat.le_add_left _ _)

theorem startFrom_fits (p : Plan) (next : Nat) : (startFrom p next).Fits p := by
  rw [startFrom]
  split
  · next h => exact h
  · exact probeFrom_fits p 0

theorem ahead_startFrom_le (p : Plan) (next : Nat) :
    (startFrom p next).ahead p ≤ p.servers - next + (2 * p.servers + 3) := by
  rw [startFrom]
  split
  · exact Nat.le_refl _
  · have hle := ahead_probeFrom_le p 0
    omega

theorem stopFrom_fits {left : Nat} (h : left ≤ p.servers) (cause : Option Cause) :
    (stopFrom left cause).Fits p := by
  rw [stopFrom]
  split
  · trivial
  · next hleft => exact ⟨Nat.pos_of_ne_zero hleft, h⟩

theorem ahead_stopFrom_le (p : Plan) (left : Nat) (cause : Option Cause) :
    (stopFrom left cause).ahead p ≤ left := by
  rw [stopFrom]
  split
  · exact Nat.zero_le _
  · exact Nat.le_refl _

/-- Whatever comes of an action, the stage after it fits too. -/
theorem next_fits (h : stage.Fits p) (result : Except Failure Unit) :
    (stage.next p result).Fits p := by
  cases stage with
  | starting n =>
      cases result with
      | ok u => exact startFrom_fits p (n + 1)
      | error f => exact stopFrom_fits (Nat.le_of_lt h) _
  | probing n =>
      cases result with
      | ok u => exact probeFrom_fits p (n + 1)
      | error f => exact stopFrom_fits (Nat.le_refl _) _
  | registering =>
      cases result with
      | ok u => trivial
      | error f => exact stopFrom_fits (Nat.le_refl _) _
  | serving => trivial
  | withdrawing => exact stopFrom_fits (Nat.le_refl _) none
  | stopping left cause => exact stopFrom_fits (Nat.le_trans (Nat.sub_le _ _) h.2) cause
  | ended cause => trivial

/-- Whatever comes of an action, fewer actions can follow. -/
theorem ahead_next_lt (h : stage.Fits p) (ha : stage.action? = some action)
    (result : Except Failure Unit) : (stage.next p result).ahead p < stage.ahead p := by
  cases stage with
  | starting n =>
      have hn : n < p.servers := h
      cases result with
      | ok u =>
          refine Nat.lt_of_le_of_lt (ahead_startFrom_le p (n + 1)) ?_
          simp only [ahead]
          omega
      | error f =>
          refine Nat.lt_of_le_of_lt (ahead_stopFrom_le p n _) ?_
          simp only [ahead]
          omega
  | probing n =>
      have hn : n < p.servers := h
      cases result with
      | ok u =>
          refine Nat.lt_of_le_of_lt (ahead_probeFrom_le p (n + 1)) ?_
          simp only [ahead]
          omega
      | error f =>
          refine Nat.lt_of_le_of_lt (ahead_stopFrom_le p p.servers _) ?_
          simp only [ahead]
          omega
  | registering =>
      cases result with
      | ok u => exact Nat.lt_succ_self _
      | error f =>
          refine Nat.lt_of_le_of_lt (ahead_stopFrom_le p p.servers _) ?_
          simp only [ahead]
          omega
  | serving => exact Nat.lt_succ_self _
  | withdrawing => exact Nat.lt_succ_of_le (ahead_stopFrom_le p p.servers none)
  | stopping left cause =>
      have hpos : 0 < left := h.1
      refine Nat.lt_of_le_of_lt (ahead_stopFrom_le p (left - 1) cause) ?_
      simp only [ahead]
      omega
  | ended cause => cases ha

theorem ahead_first_lt_fuel (p : Plan) : (first p).ahead p < fuel p := by
  have hle := ahead_startFrom_le p 0
  rw [first, fuel]
  omega

end Lifecycle.Stage

namespace Application

open Lifecycle (Stage Plan Action)

variable {a : Application} {p : Plan} {isWatched : Bool} {stage : Stage} {action : Action}
  {r : Run} {I J : Stage → Run → Prop}

/-- Only the withdrawal may not come back. -/
theorem eq_deregister_of_perform (h : (a.perform isWatched r action).2 = none) :
    action = .deregister := by
  cases action with
  | deregister => rfl
  | _ => cases h

theorem action?_eq_deregister (h : stage.action? = some .deregister) : stage = .withdrawing := by
  cases stage with
  | withdrawing => rfl
  | _ => cases h

theorem walk_ended (a : Application) (p : Plan) (isWatched : Bool) (fuel : Nat)
    (cause : Option Lifecycle.Cause) (r : Run) :
    walk a p isWatched fuel (.ended cause) r = (r, .ended cause) := by
  cases fuel <;> rfl

theorem walk_succ (h : stage.action? = some action) {result : Except Failure Unit}
    (hr : (a.perform isWatched r action).2 = some result) (fuel : Nat) :
    walk a p isWatched (fuel + 1) stage r =
      walk a p isWatched fuel (stage.next p result) (a.perform isWatched r action).1 := by
  rw [walk, h]
  dsimp only
  cases hp : a.perform isWatched r action with
  | mk r' outcome =>
      rw [hp] at hr
      obtain rfl : outcome = some result := hr
      rfl

/-- Where an action does not come back, the life stays. -/
theorem walk_stays (h : stage.action? = some action)
    (hr : (a.perform isWatched r action).2 = none) (fuel : Nat) :
    walk a p isWatched (fuel + 1) stage r = ((a.perform isWatched r action).1, stage) := by
  rw [walk, h]
  dsimp only
  cases hp : a.perform isWatched r action with
  | mk r' outcome =>
      rw [hp] at hr
      obtain rfl : outcome = none := hr
      rfl

/-- What every action keeps is there where the life has come to. -/
theorem walk_ends
    (hstep : ∀ stage action r result, stage.action? = some action →
      (a.perform isWatched r action).2 = some result → I stage r →
        I (stage.next p result) (a.perform isWatched r action).1)
    (hstays : ∀ r, (a.perform isWatched r .deregister).2 = none → I .withdrawing r →
      J .withdrawing (a.perform isWatched r .deregister).1)
    (hended : ∀ cause r, I (.ended cause) r → J (.ended cause) r)
    {fuel : Nat} (hfits : stage.Fits p) (hfuel : stage.ahead p < fuel) (hI : I stage r) :
    J (walk a p isWatched fuel stage r).2 (walk a p isWatched fuel stage r).1 := by
  induction fuel generalizing stage r with
  | zero => omega
  | succ fuel ih =>
      cases haction : stage.action? with
      | none =>
          -- only the end asks for nothing
          cases stage with
          | ended cause =>
              rw [walk_ended]
              exact hended cause r hI
          | _ => cases haction
      | some action =>
          cases hr : (a.perform isWatched r action).2 with
          | none =>
              rw [walk_stays haction hr]
              obtain rfl := eq_deregister_of_perform hr
              obtain rfl := action?_eq_deregister haction
              exact hstays r hr hI
          | some result =>
              have hlt := Stage.ahead_next_lt hfits haction result
              rw [walk_succ haction hr]
              exact ih (Stage.next_fits hfits _) (by omega)
                (hstep stage action r result haction hr hI)

/-- What is there when the registry has been opened, and is kept by every action, is there where the
application has come to. -/
theorem runUntil_ends {detected : String}
    (hstep : ∀ p isWatched stage action r result, stage.action? = some action →
      (a.perform isWatched r action).2 = some result → I stage r →
        I (stage.next p result) (a.perform isWatched r action).1)
    (hstays : ∀ isWatched r, (a.perform isWatched r .deregister).2 = none → I .withdrawing r →
      J .withdrawing (a.perform isWatched r .deregister).1)
    (hended : ∀ cause r, I (.ended cause) r → J (.ended cause) r)
    (hfirst : ∀ p, I (.first p) (a.init detected r)) :
    J (a.runUntil detected r).2 (a.runUntil detected r).1 :=
  walk_ends (hstep _ _) (hstays _) hended (Stage.startFrom_fits _ 0) (Stage.ahead_first_lt_fuel _)
    (hfirst _)

end Application

end ServiceMesh
