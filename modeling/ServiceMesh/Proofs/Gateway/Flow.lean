import ServiceMesh.Gateway.Flow

/-!
The handling of requests, run on the traffic there has been before. What every part of the handling
keeps of the traffic, the whole of it keeps.
-/

namespace ServiceMesh.Gateway.Flow

variable {α β : Type} {P : Traffic → Prop}

def perform (x : Flow α) (t : Traffic) : Except Panic α × Traffic := x.run.run t

theorem ext {x y : Flow α} (h : ∀ t, x.perform t = y.perform t) : x = y := funext h

theorem perform_pure (a : α) (t : Traffic) : (pure a : Flow α).perform t = (.ok a, t) := rfl

theorem perform_bind (x : Flow α) (f : α → Flow β) (t : Traffic) :
    (x >>= f).perform t =
      match x.perform t with
      | (.ok a, t') => (f a).perform t'
      | (.error p, t') => (.error p, t') := by
  cases h : x.perform t with
  | mk r t' =>
      rw [perform] at h
      rw [perform, ExceptT.run_bind]
      change (do let r ← x.run; _ : StateM Traffic _).run t = _
      rw [StateT.run_bind, h]
      cases r <;> rfl

theorem perform_tryCatch (x : Flow α) (f : Panic → Flow α) (t : Traffic) :
    (tryCatch x f).perform t =
      match x.perform t with
      | (.ok a, t') => (.ok a, t')
      | (.error p, t') => (f p).perform t' := by
  cases h : x.perform t with
  | mk r t' =>
      rw [perform] at h
      rw [perform, ExceptT.run_tryCatch, StateT.run_bind, h]
      cases r <;> rfl

/-! ### What is kept -/

/-- The handling keeps what holds of the traffic before it, however it ends. -/
def Keeps (P : Traffic → Prop) (x : Flow α) : Prop := ∀ t, P t → P (x.perform t).2

theorem keeps_pure (a : α) : Keeps P (pure a : Flow α) := fun _ h => h

theorem keeps_throw (p : Panic) : Keeps P (throw p : Flow α) := fun _ h => h

theorem Keeps.bind {x : Flow α} {f : α → Flow β} (hx : Keeps P x) (hf : ∀ a, Keeps P (f a)) :
    Keeps P (x >>= f) := by
  intro t ht
  have hmid := hx t ht
  rw [perform_bind]
  cases h : x.perform t with
  | mk r t' =>
      rw [h] at hmid
      cases r with
      | ok a => exact hf a t' hmid
      | error p => exact hmid

theorem Keeps.tryCatch {x : Flow α} {f : Panic → Flow α} (hx : Keeps P x)
    (hf : ∀ p, Keeps P (f p)) : Keeps P (tryCatch x f) := by
  intro t ht
  have hmid := hx t ht
  rw [perform_tryCatch]
  cases h : x.perform t with
  | mk r t' =>
      rw [h] at hmid
      cases r with
      | ok a => exact hmid
      | error p => exact hf p t' hmid

end ServiceMesh.Gateway.Flow
