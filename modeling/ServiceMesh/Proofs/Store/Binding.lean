import ServiceMesh.Proofs.Store.Log

/-!
Leases, and the keys that are bound to them. In a store that was filled by its own operations a key
is bound to the lease under which its record was written last, and to no other. So when a lease
ends, it takes exactly these records with it.
-/

namespace ServiceMesh.Store

variable {s s' : Store}

def HasLease (s : Store) (l : LeaseId) : Prop := (s.lease? l).isSome = true

instance (s : Store) (l : LeaseId) : Decidable (s.HasLease l) :=
  inferInstanceAs (Decidable ((s.lease? l).isSome = true))

/-- A key is bound to no lease but the one under which its record was written last. -/
def Consistent (s : Store) : Prop :=
  ∀ k l, k ∈ s.boundKeys l → ∃ v, s.records.get? k = some ⟨v, some l⟩

/-- A key is bound to a lease exactly if its record was written last under the lease. -/
def Bound (s : Store) : Prop :=
  ∀ k l, k ∈ s.boundKeys l ↔ ∃ v, s.records.get? k = some ⟨v, some l⟩

theorem Bound.consistent (h : s.Bound) : s.Consistent := fun k l => (h k l).1

theorem bound_empty : empty.Bound := by
  intro k l
  constructor
  · rintro ⟨⟩
  · rintro ⟨v, ⟨⟩⟩

theorem HasLease.of_mem_boundKeys {k : String} {l : LeaseId} (h : k ∈ s.boundKeys l) :
    s.HasLease l := by
  rw [boundKeys] at h
  split at h
  · next hl => rw [HasLease, hl]; rfl
  · cases h

/-- Whoever is stored under a lease, the lease is there. -/
theorem Bound.hasLease (h : s.Bound) {k : String} {v : List UInt8} {l : LeaseId}
    (hr : s.records.get? k = some ⟨v, some l⟩) : s.HasLease l :=
  .of_mem_boundKeys ((h k l).2 ⟨v, hr⟩)

/-! ### The leases after an operation -/

theorem hasLease_of_leases (h : s'.leases = s.leases) (l : LeaseId) :
    s'.HasLease l ↔ s.HasLease l := by
  rw [HasLease, lease?, h, HasLease, lease?]

theorem boundKeys_of_leases (h : s'.leases = s.leases) (l : LeaseId) :
    s'.boundKeys l = s.boundKeys l := by
  rw [boundKeys, lease?, h, boundKeys, lease?]

theorem lease?_updateLease (s : Store) (id : LeaseId) (f : KeyMap Unit → KeyMap Unit)
    (l : LeaseId) :
    (s.updateLease id f).lease? l =
      if l = id then (s.lease? l).map fun x => { x with keys := f x.keys } else s.lease? l := by
  rw [lease?, updateLease, List.find?_map, lease?]
  have hid : ((fun x : Lease => decide (x.id = l)) ∘
      fun x => if x.id = id then { x with keys := f x.keys } else x) =
        fun x => decide (x.id = l) := by
    funext x
    dsimp only [Function.comp_apply]
    split <;> rfl
  rw [hid]
  cases hx : s.leases.find? fun x => decide (x.id = l) with
  | none => simp
  | some x =>
      obtain rfl : x.id = l := by simpa using List.find?_some hx
      rw [Option.map_some, Option.map_some]
      split <;> rfl

@[simp] theorem hasLease_updateLease (s : Store) (id : LeaseId) (f : KeyMap Unit → KeyMap Unit)
    (l : LeaseId) : (s.updateLease id f).HasLease l ↔ s.HasLease l := by
  rw [HasLease, HasLease, lease?_updateLease]
  split <;> simp

theorem mem_boundKeys_updateLease (s : Store) (id : LeaseId) (f : KeyMap Unit → KeyMap Unit)
    (k : String) (l : LeaseId) :
    k ∈ (s.updateLease id f).boundKeys l ↔
      if l = id then ∃ x, s.lease? l = some x ∧ k ∈ (f x.keys).keys else k ∈ s.boundKeys l := by
  rw [boundKeys, lease?_updateLease, boundKeys]
  split
  · next hx =>
      split at hx
      · next hl =>
          obtain ⟨y, hy, rfl⟩ := Option.map_eq_some_iff.1 hx
          rw [if_pos hl, hy]
          simp
      · next hl => rw [if_neg hl, hx]
  · next hx =>
      split at hx
      · next hl =>
          rw [if_pos hl, Option.map_eq_none_iff.1 hx]
          simp
      · next hl => rw [if_neg hl, hx]

/-- A key that is bound to a lease that is there joins its keys. -/
theorem mem_boundKeys_bind {id : LeaseId} (hid : s.HasLease id) (key k : String) (l : LeaseId) :
    k ∈ (s.bind key id).boundKeys l ↔ (l = id ∧ k = key) ∨ k ∈ s.boundKeys l := by
  rw [bind, mem_boundKeys_updateLease]
  split
  · next hl =>
      subst hl
      obtain ⟨x, hx⟩ := Option.isSome_iff_exists.1 hid
      rw [boundKeys, hx]
      simp only [Option.some.injEq, exists_eq_left', KeyMap.mem_keys_iff, KeyMap.get?_insert,
        true_and]
      split
      · next hk => simp [hk]
      · next hk => simp [hk]
  · next hl => simp [hl]

/-- A key leaves the lease of its record. -/
theorem Consistent.mem_boundKeys_unbind (h : s.Consistent) (key k : String) (l : LeaseId) :
    k ∈ (s.unbind key).boundKeys l ↔ k ≠ key ∧ k ∈ s.boundKeys l := by
  rw [unbind]
  split
  · next id hid =>
      obtain ⟨⟨v, lease⟩, hr, rfl⟩ := Option.bind_eq_some_iff.1 hid
      rw [mem_boundKeys_updateLease]
      split
      · next hl =>
          subst hl
          rw [boundKeys]
          cases s.lease? l with
          | none => simp
          | some x =>
              simp only [Option.some.injEq, exists_eq_left', KeyMap.mem_keys_iff, KeyMap.get?_erase]
              split
              · next hk => simp [hk]
              · next hk => simp [hk]
      · next hl =>
          refine ⟨fun hm => ⟨?_, hm⟩, And.right⟩
          rintro rfl
          obtain ⟨w, hw⟩ := h _ l hm
          cases hr.symm.trans hw
          exact hl rfl
  · next hnone =>
      refine ⟨fun hm => ⟨?_, hm⟩, And.right⟩
      rintro rfl
      obtain ⟨w, hw⟩ := h _ l hm
      rw [hw] at hnone
      cases hnone

@[simp] theorem hasLease_unbind (s : Store) (key : String) (l : LeaseId) :
    (s.unbind key).HasLease l ↔ s.HasLease l := by
  rw [unbind]
  split
  · exact hasLease_updateLease s _ _ l
  · rfl

theorem leases_of_put {key : String} {value : List UInt8} {lease : Option LeaseId}
    (h : s.put key value lease = .ok s') :
    match lease with
    | none => s'.leases = (s.unbind key).leases
    | some id => s.HasLease id ∧ s'.leases = ((s.unbind key).bind key id).leases := by
  rw [put] at h
  split at h
  · cases h
  · cases lease with
    | none =>
        obtain rfl := Except.ok.inj h
        rfl
    | some id =>
        dsimp only at h
        split at h
        · next hid =>
            obtain rfl := Except.ok.inj h
            exact ⟨hid, rfl⟩
        · cases h

/-- A write leaves all leases where they are. -/
theorem hasLease_of_put {key : String} {value : List UInt8} {lease : Option LeaseId}
    (h : s.put key value lease = .ok s') (l : LeaseId) : s'.HasLease l ↔ s.HasLease l := by
  have hl := leases_of_put h
  cases lease with
  | none => rw [hasLease_of_leases hl, hasLease_unbind]
  | some id => rw [hasLease_of_leases hl.2, bind, hasLease_updateLease, hasLease_unbind]

theorem leases_of_delete {key : String} (h : s.delete key = .ok s') :
    s'.leases = (s.unbind key).leases ∨ s' = s := by
  rw [delete] at h
  split at h
  · cases h
  · split at h
    · obtain rfl := Except.ok.inj h
      exact .inl rfl
    · obtain rfl := Except.ok.inj h
      exact .inr rfl

theorem hasLease_of_delete {key : String} (h : s.delete key = .ok s') (l : LeaseId) :
    s'.HasLease l ↔ s.HasLease l := by
  rcases leases_of_delete h with hl | rfl
  · rw [hasLease_of_leases hl, hasLease_unbind]
  · rfl

theorem leases_of_grant {id : LeaseId} (h : s.grant = .ok (s', id)) :
    id = s.nextLease ∧ s'.leases = (s.leases.filter fun l => l.id ≠ id) ++ [⟨id, ∅⟩] ∧
      s'.nextLease = s.nextLease + 1 := by
  rw [grant] at h
  split at h
  · cases h
  · obtain ⟨rfl, rfl⟩ := Prod.mk.inj (Except.ok.inj h)
    exact ⟨rfl, rfl, rfl⟩

theorem lease?_of_grant {id : LeaseId} (h : s.grant = .ok (s', id)) (l : LeaseId) :
    s'.lease? l = if l = id then some ⟨id, ∅⟩ else s.lease? l := by
  rw [lease?, (leases_of_grant h).2.1, List.find?_append, List.find?_filter, lease?]
  split
  · next hl =>
      subst hl
      have hnobody : (s.leases.find? fun x => decide (decide (x.id ≠ l) = true ∧
          decide (x.id = l) = true)) = none := by
        simp
      rw [hnobody]
      simp
  · next hl =>
      have hothers : (s.leases.find? fun x => decide (decide (x.id ≠ id) = true ∧
          decide (x.id = l) = true)) = s.leases.find? fun x => decide (x.id = l) := by
        congr 1
        funext x
        by_cases hx : x.id = l <;> simp [hx, hl]
      rw [hothers]
      simp [Ne.symm hl]

/-- A lease that is granted is there, and no other one comes or goes. -/
theorem hasLease_of_grant {id : LeaseId} (h : s.grant = .ok (s', id)) (l : LeaseId) :
    s'.HasLease l ↔ s.HasLease l ∨ l = id := by
  rw [HasLease, lease?_of_grant h, HasLease]
  split
  · next hl => simp [hl]
  · next hl => simp [hl]

/-- A lease that has just been granted has no keys yet, whoever had its number before. -/
theorem mem_boundKeys_of_grant {id : LeaseId} (h : s.grant = .ok (s', id)) (k : String)
    (l : LeaseId) : k ∈ s'.boundKeys l ↔ l ≠ id ∧ k ∈ s.boundKeys l := by
  rw [boundKeys, lease?_of_grant h]
  by_cases hl : l = id
  · rw [if_pos hl]
    exact ⟨fun hk => absurd hk List.not_mem_nil, fun hk => absurd hl hk.1⟩
  · rw [if_neg hl, ← boundKeys]
    simp [hl]

/-! ### The number of the next lease -/

theorem nextLease_unbind (s : Store) (key : String) : (s.unbind key).nextLease = s.nextLease := by
  rw [unbind]
  split <;> rfl

theorem nextLease_of_put {key : String} {value : List UInt8} {lease : Option LeaseId}
    (h : s.put key value lease = .ok s') : s'.nextLease = s.nextLease := by
  rw [put] at h
  split at h
  · cases h
  · cases lease with
    | none =>
        obtain rfl := Except.ok.inj h
        exact nextLease_unbind s key
    | some id =>
        dsimp only at h
        split at h
        · obtain rfl := Except.ok.inj h
          exact nextLease_unbind s key
        · cases h

theorem nextLease_of_delete {key : String} (h : s.delete key = .ok s') :
    s'.nextLease = s.nextLease := by
  rw [delete] at h
  split at h
  · cases h
  · split at h
    · obtain rfl := Except.ok.inj h
      exact nextLease_unbind s key
    · obtain rfl := Except.ok.inj h
      rfl

/-! ### The end of a lease -/

@[simp] theorem drop_leases (s : Store) (key : String) : (s.drop key).leases = s.leases := by
  rw [drop]
  split <;> rfl

theorem foldl_drop_leases (keys : List String) (s : Store) :
    (keys.foldl drop s).leases = s.leases := by
  induction keys generalizing s with
  | nil => rfl
  | cons k keys ih => rw [List.foldl_cons, ih, drop_leases]

/-- The records of a lease go with their events, and nothing else changes. -/
theorem foldl_drop_settings (keys : List String) (s : Store) :
    (keys.foldl drop s).nextLease = s.nextLease ∧
      (keys.foldl drop s).isAvailable = s.isAvailable ∧
        (keys.foldl drop s).rejectsKeepAlive = s.rejectsKeepAlive := by
  induction keys generalizing s with
  | nil => exact ⟨rfl, rfl, rfl⟩
  | cons k keys ih =>
      rw [List.foldl_cons]
      obtain ⟨hn, ha, hr⟩ := ih (s.drop k)
      rw [hn, ha, hr, drop]
      split <;> exact ⟨rfl, rfl, rfl⟩

theorem get?_records_drop (s : Store) (key k : String) :
    (s.drop key).records.get? k = if k = key then none else s.records.get? k := by
  rw [drop]
  split
  · exact KeyMap.get?_erase s.records key k
  · next hc =>
      split
      · next hk => rw [hk]; simpa [KeyMap.contains] using hc
      · rfl

theorem get?_records_foldl_drop (keys : List String) (s : Store) (k : String) :
    (keys.foldl drop s).records.get? k = if k ∈ keys then none else s.records.get? k := by
  induction keys generalizing s with
  | nil => rfl
  | cons j keys ih =>
      rw [List.foldl_cons, ih, get?_records_drop]
      by_cases hk : k ∈ keys
      · rw [if_pos hk, if_pos (List.mem_cons_of_mem j hk)]
      · rw [if_neg hk]
        simp [hk]

theorem lease?_expire (s : Store) (id l : LeaseId) :
    (s.expire id).lease? l = if l = id then none else s.lease? l := by
  rw [expire, lease?, foldl_drop_leases, List.find?_filter, lease?]
  split
  · next hl =>
      subst hl
      simp
  · next hl =>
      congr 1
      funext x
      by_cases hx : x.id = l <;> simp [hx, hl]

@[simp] theorem hasLease_expire (s : Store) (id l : LeaseId) :
    (s.expire id).HasLease l ↔ s.HasLease l ∧ l ≠ id := by
  rw [HasLease, lease?_expire, HasLease]
  split
  · next hl => simp [hl]
  · next hl => simp [hl]

/-- The keys of a lease that ends are bound to nothing; all others stay as they are. -/
theorem mem_boundKeys_expire (s : Store) (id : LeaseId) (k : String) (l : LeaseId) :
    k ∈ (s.expire id).boundKeys l ↔ l ≠ id ∧ k ∈ s.boundKeys l := by
  rw [boundKeys, lease?_expire]
  by_cases hl : l = id
  · simp [hl]
  · rw [if_neg hl, ← boundKeys]
    simp [hl]

theorem get?_records_expire (s : Store) (id : LeaseId) (k : String) :
    (s.expire id).records.get? k = if k ∈ s.boundKeys id then none else s.records.get? k :=
  get?_records_foldl_drop _ _ k

theorem published_foldl_drop {keys : List String} (hn : keys.Nodup)
    (hc : ∀ k ∈ keys, s.records.contains k = true) :
    (keys.foldl drop s).published.toList = s.published.toList ++ keys.map .delete := by
  induction keys generalizing s with
  | nil => exact (List.append_nil _).symm
  | cons j keys ih =>
      obtain ⟨hj, hn⟩ := List.nodup_cons.1 hn
      have hrest : ∀ k ∈ keys, (s.drop j).records.contains k = true := by
        intro k hk
        have hne : k ≠ j := fun he => hj (he ▸ hk)
        rw [KeyMap.contains, get?_records_drop, if_neg hne]
        exact hc k (List.mem_cons_of_mem j hk)
      rw [List.foldl_cons, ih hn hrest, drop, if_pos (hc j List.mem_cons_self), publish]
      simp

/-- The end of a lease publishes that its records are gone, one event for each. -/
theorem Consistent.published_expire (h : s.Consistent) (id : LeaseId) :
    (s.expire id).published.toList = s.published.toList ++ (s.boundKeys id).map .delete := by
  have hn : (s.boundKeys id).Nodup := by
    rw [boundKeys]
    split
    · exact (KeyMap.keys_sorted _).imp String.ne_of_lt
    · exact .nil
  refine published_foldl_drop hn fun k hk => ?_
  obtain ⟨v, hv⟩ := h k id hk
  rw [KeyMap.contains, hv]
  rfl

/-- A record does not go with a lease other than its own. -/
theorem Consistent.get?_records_expire (h : s.Consistent) {k : String} {v : List UInt8}
    {l id : LeaseId} (hr : s.records.get? k = some ⟨v, some l⟩) (hid : id ≠ l) :
    (s.expire id).records.get? k = some ⟨v, some l⟩ := by
  rw [Store.get?_records_expire, if_neg, hr]
  intro hm
  obtain ⟨w, hw⟩ := h k id hm
  cases hr.symm.trans hw
  exact hid rfl

/-! ### The keys of a lease after an operation -/

/-- A key that is written joins the new lease, if there is one, and leaves all others. -/
theorem Consistent.mem_boundKeys_put (h : s.Consistent) {key : String} {value : List UInt8}
    {lease : Option LeaseId} (hp : s.put key value lease = .ok s') (k : String) (l : LeaseId) :
    k ∈ s'.boundKeys l ↔ (lease = some l ∧ k = key) ∨ (k ≠ key ∧ k ∈ s.boundKeys l) := by
  have hl := leases_of_put hp
  cases lease with
  | none => simp [boundKeys_of_leases hl, h.mem_boundKeys_unbind]
  | some id =>
      rw [boundKeys_of_leases hl.2, mem_boundKeys_bind ((hasLease_unbind s key id).2 hl.1),
        h.mem_boundKeys_unbind, Option.some.injEq, eq_comm]

/-- A key that is deleted is bound to nothing. -/
theorem Consistent.mem_boundKeys_delete (h : s.Consistent) {key : String}
    (hd : s.delete key = .ok s') (k : String) (l : LeaseId) :
    k ∈ s'.boundKeys l ↔ k ≠ key ∧ k ∈ s.boundKeys l := by
  -- without a record the key was not bound in the first place
  have hgone (hc : s.records.get? key = none) : k ∈ s.boundKeys l → k ≠ key := by
    rintro hm rfl
    obtain ⟨v, hv⟩ := h _ l hm
    cases hc.symm.trans hv
  rw [delete] at hd
  split at hd
  · cases hd
  · split at hd
    · obtain rfl := Except.ok.inj hd
      exact h.mem_boundKeys_unbind key k l
    · next hc =>
        obtain rfl := Except.ok.inj hd
        have hnone : s.records.get? key = none := by simpa [KeyMap.contains] using hc
        exact ⟨fun hm => ⟨hgone hnone hm, hm⟩, And.right⟩

theorem get?_records_of_delete {key : String} (hd : s.delete key = .ok s') (k : String) :
    s'.records.get? k = if k = key then none else s.records.get? k := by
  rcases delete_eq_ok hd with ⟨-, hr, -⟩ | ⟨hc, rfl⟩
  · rw [hr, KeyMap.get?_erase]
  · split
    · next hk =>
        rw [hk]
        simpa [KeyMap.contains] using hc
    · rfl

/-! ### Every operation keeps the keys bound -/

theorem Bound.put (h : s.Bound) {key : String} {value : List UInt8} {lease : Option LeaseId}
    (hp : s.put key value lease = .ok s') : s'.Bound := by
  intro k l
  rw [h.consistent.mem_boundKeys_put hp, (put_eq_ok hp).1, KeyMap.get?_insert, h k l]
  by_cases hk : k = key
  · simp [hk]
  · simp [hk]

theorem Consistent.put (h : s.Consistent) {key : String} {value : List UInt8}
    {lease : Option LeaseId} (hp : s.put key value lease = .ok s') : s'.Consistent := by
  intro k l hm
  rw [(put_eq_ok hp).1, KeyMap.get?_insert]
  rcases (h.mem_boundKeys_put hp k l).1 hm with ⟨rfl, hk⟩ | ⟨hk, hm⟩
  · rw [if_pos hk]
    exact ⟨value, rfl⟩
  · rw [if_neg hk]
    exact h k l hm

theorem Bound.delete (h : s.Bound) {key : String} (hd : s.delete key = .ok s') : s'.Bound := by
  intro k l
  rw [h.consistent.mem_boundKeys_delete hd, get?_records_of_delete hd, h k l]
  by_cases hk : k = key
  · simp [hk]
  · simp [hk]

theorem Consistent.delete (h : s.Consistent) {key : String} (hd : s.delete key = .ok s') :
    s'.Consistent := by
  intro k l hm
  obtain ⟨hk, hm⟩ := (h.mem_boundKeys_delete hd k l).1 hm
  rw [get?_records_of_delete hd, if_neg hk]
  exact h k l hm

/-- As long as the number of the new lease is not in use. -/
theorem Bound.grant (h : s.Bound) {id : LeaseId} (hg : s.grant = .ok (s', id))
    (hnew : ¬s.HasLease id) : s'.Bound := by
  intro k l
  rw [mem_boundKeys_of_grant hg, (grant_eq_ok hg).1, h k l]
  refine ⟨And.right, fun ⟨v, hv⟩ => ⟨?_, v, hv⟩⟩
  rintro rfl
  exact hnew (h.hasLease hv)

theorem Consistent.grant (h : s.Consistent) {id : LeaseId} (hg : s.grant = .ok (s', id)) :
    s'.Consistent := by
  intro k l hm
  rw [(grant_eq_ok hg).1]
  exact h k l ((mem_boundKeys_of_grant hg k l).1 hm).2

theorem Bound.expire (h : s.Bound) (id : LeaseId) : (s.expire id).Bound := by
  intro k l
  rw [mem_boundKeys_expire, Store.get?_records_expire, h k l]
  constructor
  · rintro ⟨hl, v, hv⟩
    rw [← Store.get?_records_expire]
    exact ⟨v, h.consistent.get?_records_expire hv (Ne.symm hl)⟩
  · rintro ⟨v, hv⟩
    split at hv
    · cases hv
    · next hm =>
        refine ⟨?_, v, hv⟩
        rintro rfl
        exact hm ((h k _).2 ⟨v, hv⟩)

theorem Consistent.expire (h : s.Consistent) (id : LeaseId) : (s.expire id).Consistent := by
  intro k l hm
  obtain ⟨hl, hm⟩ := (mem_boundKeys_expire s id k l).1 hm
  obtain ⟨v, hv⟩ := h k l hm
  exact ⟨v, h.get?_records_expire hv (Ne.symm hl)⟩

/-- Whatever is done to a store, its keys stay bound as they should be, as long as no number of a
lease is given out while it is in use. -/
theorem Bound.run (h : s.Bound) (op : Op) (hnew : op = .grant → ¬s.HasLease s.nextLease) :
    (op.run s).Bound := by
  cases op with
  | put key value lease =>
      rw [Op.run]
      split
      · next hp => exact h.put hp
      · exact h
  | delete key =>
      rw [Op.run]
      split
      · next hd => exact h.delete hd
      · exact h
  | grant =>
      rw [Op.run]
      split
      · next hg =>
          obtain ⟨rfl, -⟩ := leases_of_grant hg
          exact h.grant hg (hnew rfl)
      · exact h
  | expire lease => exact h.expire lease
  | setAvailable on => exact h
  | setRejectsKeepAlive on => exact h

/-- Whatever is done to a store, no key is ever bound to another lease than that of its record. -/
theorem Consistent.run (h : s.Consistent) (op : Op) : (op.run s).Consistent := by
  cases op with
  | put key value lease =>
      rw [Op.run]
      split
      · next hp => exact h.put hp
      · exact h
  | delete key =>
      rw [Op.run]
      split
      · next hd => exact h.delete hd
      · exact h
  | grant =>
      rw [Op.run]
      split
      · next hg => exact h.grant hg
      · exact h
  | expire lease => exact h.expire lease
  | setAvailable on => exact h
  | setRejectsKeepAlive on => exact h

inductive Reachable : Store → Prop where
  | empty : Reachable empty
  | run {s : Store} (h : Reachable s) (op : Op) : Reachable (op.run s)

theorem Reachable.consistent (h : s.Reachable) : s.Consistent := by
  induction h with
  | empty => exact bound_empty.consistent
  | run _ op ih => exact ih.run op

/-- As long as the lease is there, the record under the key is this one and goes with the lease. -/
def Holds (s : Store) (k : String) (v : List UInt8) (l : LeaseId) : Prop :=
  s.HasLease l → s.records.get? k = some ⟨v, some l⟩ ∧ k ∈ s.boundKeys l

end ServiceMesh.Store
