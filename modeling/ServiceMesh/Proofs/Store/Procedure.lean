import ServiceMesh.Proofs.Keyed
import ServiceMesh.Proofs.Store.Binding

/-!
The operations of a store as procedures, which change it one thing after the other. A procedure
that fails leaves behind whatever it has changed before. The main statement is that none of them
has changed anything by then: each ends as the operation does, with the store that the operation
gives, or with the store as it was.
-/

namespace ServiceMesh.Store

/-- Something that is done to a store step by step, and that may fail on the way. -/
abbrev Procedure (α : Type) := ExceptT Failure (StateM Store) α

namespace Procedure

variable {α β : Type}

def perform (x : Procedure α) (s : Store) : Except Failure α × Store := x.run.run s

def requireAvailable : Procedure Unit := do
  unless (← get).isAvailable do throw .storeUnreachable

/-- The key joins the new lease before the record is written, and leaves the old one after that. -/
def put (key : String) (value : List UInt8) (lease : Option LeaseId) : Procedure Unit := do
  requireAvailable
  if let some id := lease then
    unless ((← get).lease? id).isSome do
      throw (.notFound ("lease " ++ id.text ++ " not found"))
    modify (·.bind key id)
  let replaced := (← get).records.get? key
  modify fun s => { s with records := s.records.insert key ⟨value, lease⟩ }
  if let some old := replaced.bind (·.lease) then
    unless lease = some old do
      modify (·.updateLease old fun keys => keys.erase key)
  modify (·.publish (.put key value))

/-- The record goes first, and then its key leaves the lease. -/
def delete (key : String) : Procedure Unit := do
  requireAvailable
  if let some removed := (← get).records.get? key then
    modify fun s => { s with records := s.records.erase key }
    if let some id := removed.lease then
      modify (·.updateLease id fun keys => keys.erase key)
    modify (·.publish (.delete key))

/-- The number is used up before the lease is there. -/
def grant : Procedure LeaseId := do
  requireAvailable
  let id := (← get).nextLease
  modify fun s => { s with nextLease := id + 1 }
  modify fun s => { s with leases := (s.leases.filter fun l => l.id ≠ id) ++ [⟨id, ∅⟩] }
  return id

/-! ### Steps -/

theorem perform_bind (x : Procedure α) (f : α → Procedure β) (s : Store) :
    (x >>= f).perform s =
      match x.perform s with
      | (.ok a, t) => (f a).perform t
      | (.error e, t) => (.error e, t) := by
  cases h : x.perform s with
  | mk r t =>
      rw [perform] at h
      rw [perform, ExceptT.run_bind]
      change (do let r ← x.run; _ : StateM Store _).run s = _
      rw [StateT.run_bind, h]
      cases r <;> rfl

theorem perform_pure (a : α) (s : Store) : (pure a : Procedure α).perform s = (.ok a, s) := rfl

theorem perform_get (s : Store) : (get : Procedure Store).perform s = (.ok s, s) := rfl

theorem perform_modify (f : Store → Store) (s : Store) :
    (modify f : Procedure Unit).perform s = (.ok (), f s) := rfl

theorem perform_throw (e : Failure) (s : Store) :
    (throw e : Procedure α).perform s = (.error e, s) := rfl

theorem perform_requireAvailable (s : Store) :
    requireAvailable.perform s =
      if s.isAvailable then (.ok (), s) else (.error .storeUnreachable, s) := by
  rw [requireAvailable, perform_bind, perform_get]
  dsimp only
  split <;> rfl

end Procedure

/-! ### The order of two changes of the leases -/

theorem updateLease_updateLease_self (s : Store) (id : LeaseId) (f g : KeyMap Unit → KeyMap Unit) :
    (s.updateLease id f).updateLease id g = s.updateLease id (g ∘ f) := by
  rw [updateLease, updateLease, updateLease, List.map_map]
  congr 2
  funext l
  by_cases h : l.id = id <;> simp [h]

/-- Changes of different leases do not see each other. -/
theorem updateLease_comm {id id' : LeaseId} (h : id ≠ id') (s : Store)
    (f g : KeyMap Unit → KeyMap Unit) :
    (s.updateLease id f).updateLease id' g = (s.updateLease id' g).updateLease id f := by
  rw [updateLease, updateLease, updateLease, updateLease, List.map_map, List.map_map]
  congr 2
  funext l
  dsimp only [Function.comp_apply]
  by_cases hl : l.id = id
  · have hl' : l.id ≠ id' := fun he => h (hl.symm.trans he)
    simp only [if_pos hl, if_neg hl']
  · by_cases hl' : l.id = id'
    · simp only [if_pos hl', if_neg hl]
    · simp only [if_neg hl', if_neg hl]

/-- To leave the old lease and join the new one comes to joining first and leaving then, unless the
leases are the same. -/
theorem bind_unbind (s : Store) (key : String) (id : LeaseId) :
    (s.unbind key).bind key id =
      match (s.records.get? key).bind (·.lease) with
      | none => s.bind key id
      | some old =>
        if id = old then s.bind key id
        else (s.bind key id).updateLease old fun keys => keys.erase key := by
  rw [unbind]
  cases (s.records.get? key).bind (·.lease) with
  | none => rfl
  | some old =>
      dsimp only
      split
      · next he =>
          subst he
          rw [bind, updateLease_updateLease_self, bind]
          congr 1
          funext keys
          refine KeyMap.ext_get? fun k => ?_
          by_cases hk : k = key
          · simp [hk]
          · simp [KeyMap.get?_insert_of_ne _ hk, KeyMap.get?_erase_of_ne _ hk]
      · next hne => rw [bind, updateLease_comm (Ne.symm hne), bind]

/-! ### Procedures and operations -/

open Procedure (perform_bind perform_pure perform_get perform_modify perform_throw
  perform_requireAvailable)

theorem perform_put (s : Store) (key : String) (value : List UInt8) (lease : Option LeaseId) :
    (Procedure.put key value lease).perform s =
      match s.put key value lease with
      | .ok s' => (.ok (), s')
      | .error f => (.error f, s) := by
  rw [Procedure.put, perform_bind, perform_requireAvailable, put]
  cases s.isAvailable with
  | false => rfl
  | true =>
      cases lease with
      | none =>
          cases hold : (s.records.get? key).bind (·.lease) with
          | none => simp [perform_bind, perform_get, perform_modify, unbind, hold]
          | some old => simp [perform_bind, perform_get, perform_modify, unbind, updateLease, hold]
      | some id =>
          cases hid : s.lease? id with
          | none => simp [perform_bind, perform_get, perform_throw, hid]
          | some x =>
              cases hold : (s.records.get? key).bind (·.lease) with
              | none => simp [perform_bind, perform_get, perform_modify, bind_unbind, hid, hold]
              | some old =>
                  by_cases he : id = old
                  · subst he
                    simp [perform_bind, perform_get, perform_modify, bind_unbind, hid, hold]
                  · simp [perform_bind, perform_get, perform_modify, bind_unbind, updateLease, hid,
                      hold, he]

theorem perform_delete (s : Store) (key : String) :
    (Procedure.delete key).perform s =
      match s.delete key with
      | .ok s' => (.ok (), s')
      | .error f => (.error f, s) := by
  rw [Procedure.delete, perform_bind, perform_requireAvailable, delete]
  cases s.isAvailable with
  | false => rfl
  | true =>
      cases hr : s.records.get? key with
      | none => simp [perform_bind, perform_get, perform_pure, KeyMap.contains, hr]
      | some r =>
          cases hl : r.lease with
          | none => simp [perform_bind, perform_get, perform_modify, KeyMap.contains, unbind, hr, hl]
          | some id =>
              simp [perform_bind, perform_get, perform_modify, KeyMap.contains, unbind, updateLease,
                hr, hl]

theorem perform_grant (s : Store) :
    Procedure.grant.perform s =
      match s.grant with
      | .ok (s', id) => (.ok id, s')
      | .error f => (.error f, s) := by
  rw [Procedure.grant, perform_bind, perform_requireAvailable, grant]
  by_cases ha : s.isAvailable = true
  · rw [if_pos ha, if_neg (not_not.2 ha)]
    rfl
  · rw [if_neg ha, if_pos ha]

/-- Somebody asks for it. What happens to a store by itself is not refused. -/
def Op.IsRequest : Op → Prop
  | put .. | delete _ | grant => True
  | _ => False

def Op.outcome (s : Store) : Op → Except Failure (Option LeaseId)
  | put key value lease => (s.put key value lease).map fun _ => none
  | delete key => (s.delete key).map fun _ => none
  | grant => s.grant.map fun r => some r.2
  | _ => .ok none

def Op.procedure : Op → Procedure (Option LeaseId)
  | put key value lease => do
    Procedure.put key value lease
    return none
  | delete key => do
    Procedure.delete key
    return none
  | grant => return some (← Procedure.grant)
  | op => do
    modify op.run
    return none

/-- A procedure ends as the use does that it carries out, and leaves the store behind that the use
makes of it. -/
theorem perform_procedure (op : Op) (s : Store) :
    op.procedure.perform s = (op.outcome s, op.run s) := by
  cases op with
  | put key value lease =>
      rw [Op.procedure, perform_bind, perform_put, Op.outcome, Op.run]
      cases s.put key value lease <;> rfl
  | delete key =>
      rw [Op.procedure, perform_bind, perform_delete, Op.outcome, Op.run]
      cases s.delete key <;> rfl
  | grant =>
      rw [Op.procedure, perform_bind, perform_grant, Op.outcome, Op.run]
      cases s.grant <;> rfl
  | expire lease => rfl
  | setAvailable on => rfl
  | setRejectsKeepAlive on => rfl

theorem put_eq_error_iff (s : Store) (key : String) (value : List UInt8) (lease : Option LeaseId)
    (f : Failure) :
    s.put key value lease = .error f ↔
      (s.isAvailable = false ∧ f = .storeUnreachable) ∨
        (s.isAvailable = true ∧ ∃ id, lease = some id ∧ ¬s.HasLease id ∧
          f = .notFound ("lease " ++ LeaseId.text id ++ " not found")) := by
  rw [put]
  cases s.isAvailable with
  | false => simp [eq_comm (b := f)]
  | true =>
      cases lease with
      | none => simp
      | some id =>
          cases h : s.lease? id with
          | none => simp [HasLease, h, eq_comm (b := f)]
          | some x => simp [HasLease, h]

theorem delete_eq_error_iff (s : Store) (key : String) (f : Failure) :
    s.delete key = .error f ↔ s.isAvailable = false ∧ f = .storeUnreachable := by
  rw [delete]
  cases s.isAvailable with
  | false => simp [eq_comm (b := f)]
  | true =>
      rw [if_neg (by simp)]
      split <;> simp

theorem grant_eq_error_iff (s : Store) (f : Failure) :
    s.grant = .error f ↔ s.isAvailable = false ∧ f = .storeUnreachable := by
  rw [grant]
  cases s.isAvailable with
  | false => simp [eq_comm (b := f)]
  | true => simp

theorem map_eq_error_iff {α β : Type} (g : α → β) (x : Except Failure α) (f : Failure) :
    x.map g = .error f ↔ x = .error f := by
  cases x <;> simp [Except.map]

/-- Only what somebody asks for is refused: everything while the store is unavailable, and a write
under a lease that is not there. -/
theorem outcome_eq_error_iff (s : Store) (op : Op) (f : Failure) :
    op.outcome s = .error f ↔
      (op.IsRequest ∧ s.isAvailable = false ∧ f = .storeUnreachable) ∨
        (s.isAvailable = true ∧ ∃ key value id, op = .put key value (some id) ∧ ¬s.HasLease id ∧
          f = .notFound ("lease " ++ LeaseId.text id ++ " not found")) := by
  cases op with
  | put key value lease =>
      rw [Op.outcome, map_eq_error_iff, put_eq_error_iff]
      simp [Op.IsRequest]
  | delete key =>
      rw [Op.outcome, map_eq_error_iff, delete_eq_error_iff]
      simp [Op.IsRequest]
  | grant =>
      rw [Op.outcome, map_eq_error_iff, grant_eq_error_iff]
      simp [Op.IsRequest]
  | expire lease => simp [Op.outcome, Op.IsRequest]
  | setAvailable on => simp [Op.outcome, Op.IsRequest]
  | setRejectsKeepAlive on => simp [Op.outcome, Op.IsRequest]

/-- A use that fails changes nothing. -/
theorem run_of_outcome_eq_error {s : Store} {op : Op} {f : Failure} (h : op.outcome s = .error f) :
    op.run s = s := by
  cases op with
  | put key value lease =>
      rw [Op.outcome] at h
      rw [Op.run]
      cases hp : s.put key value lease with
      | ok s' => rw [hp] at h; cases h
      | error e => rfl
  | delete key =>
      rw [Op.outcome] at h
      rw [Op.run]
      cases hd : s.delete key with
      | ok s' => rw [hd] at h; cases h
      | error e => rfl
  | grant =>
      rw [Op.outcome] at h
      rw [Op.run]
      cases hg : s.grant with
      | ok r => rw [hg] at h; cases h
      | error e => rfl
  | expire lease => cases h
  | setAvailable on => cases h
  | setRejectsKeepAlive on => cases h

end ServiceMesh.Store
