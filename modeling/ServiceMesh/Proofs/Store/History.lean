import Mathlib.Algebra.Group.Nat.Defs
import Mathlib.Data.List.Induction
import ServiceMesh.Proofs.Store.Procedure

/-!
Leases as the history of a store tells them. A key is bound to a lease exactly if it was written
under the lease and neither the key nor the lease has been touched since. The numbers of leases do
not repeat, as long as there are fewer of them than fit into a signed word.
-/

namespace ServiceMesh.Store

variable {s s' : Store}

def play (s : Store) (ops : List Op) : Store := ops.foldl (fun s op => op.run s) s

def Op.Succeeds (s : Store) (op : Op) : Prop := ∃ r, op.outcome s = .ok r

def Op.Binds (s : Store) (k : String) (l : LeaseId) (op : Op) : Prop :=
  ∃ v, op = .put k v (some l) ∧ op.Succeeds s

/-- The use overwrites or deletes the record under a key, or ends its lease. -/
def Op.Releases (s : Store) (k : String) (l : LeaseId) : Op → Prop
  | put key value lease => key = k ∧ (put key value lease).Succeeds s
  | delete key => key = k ∧ (delete key).Succeeds s
  | expire id => id = l
  | _ => False

/-- None of the uses touches the record under a key, or its lease. -/
def Untouched (k : String) (l : LeaseId) : Store → List Op → Prop
  | _, [] => True
  | s, op :: ops => ¬op.Releases s k l ∧ Untouched k l (op.run s) ops

/-- The last successful write of a key was under a lease, and the record has not been deleted
since. -/
def WrittenUnder (ops : List Op) (k : String) (l : LeaseId) : Prop :=
  ∃ before op after, ops = before ++ op :: after ∧ op.Binds (empty.play before) k l ∧
    Untouched k l (op.run (empty.play before)) after

def Op.granted? (s : Store) (op : Op) : Option LeaseId := (op.outcome s).toOption.join

def granted : Store → List Op → List LeaseId
  | _, [] => []
  | s, op :: ops => (op.granted? s).toList ++ granted (op.run s) ops

/-! ### Longer histories -/

theorem play_concat (s : Store) (ops : List Op) (op : Op) :
    s.play (ops ++ [op]) = op.run (s.play ops) := List.foldl_append

theorem play_append (s : Store) (ops ops' : List Op) :
    s.play (ops ++ ops') = (s.play ops).play ops' := List.foldl_append

theorem untouched_concat (k : String) (l : LeaseId) (s : Store) (ops : List Op) (op : Op) :
    Untouched k l s (ops ++ [op]) ↔ Untouched k l s ops ∧ ¬op.Releases (s.play ops) k l := by
  induction ops generalizing s with
  | nil => exact and_comm
  | cons op' ops ih =>
      rw [List.cons_append, Untouched, ih, Untouched, and_assoc]
      rfl

theorem writtenUnder_concat (ops : List Op) (op : Op) (k : String) (l : LeaseId) :
    WrittenUnder (ops ++ [op]) k l ↔
      op.Binds (empty.play ops) k l ∨
        (WrittenUnder ops k l ∧ ¬op.Releases (empty.play ops) k l) := by
  constructor
  · rintro ⟨before, write, after, he, hb, hu⟩
    rcases List.eq_nil_or_concat after with rfl | ⟨after, last, rfl⟩
    · obtain ⟨rfl, hop⟩ := List.append_inj' he rfl
      obtain rfl := List.singleton_inj.1 hop
      exact .inl hb
    · rw [List.concat_eq_append, ← List.cons_append, ← List.append_assoc] at he
      obtain ⟨rfl, hop⟩ := List.append_inj' he rfl
      obtain rfl := List.singleton_inj.1 hop
      rw [List.concat_eq_append, untouched_concat] at hu
      refine .inr ⟨⟨before, write, after, rfl, hb, hu.1⟩, ?_⟩
      rw [play_append]
      exact hu.2
  · rintro (hb | ⟨⟨before, write, after, rfl, hb, hu⟩, hr⟩)
    · exact ⟨ops, op, [], rfl, hb, trivial⟩
    · rw [play_append] at hr
      exact ⟨before, write, after ++ [op], by simp, hb, (untouched_concat ..).2 ⟨hu, hr⟩⟩

theorem granted_concat (s : Store) (ops : List Op) (op : Op) :
    granted s (ops ++ [op]) = granted s ops ++ (op.granted? (s.play ops)).toList := by
  induction ops generalizing s with
  | nil => exact List.append_nil _
  | cons op' ops ih =>
      rw [List.cons_append, granted, ih, granted, List.append_assoc]
      rfl

/-! ### The records of a lease -/

/-- After one more use a key is bound to a lease if it was bound just now, or was and is still, as
long as no number of a lease is given out while it is in use. -/
theorem Consistent.mem_boundKeys_run (h : s.Consistent) (op : Op)
    (hnew : op = .grant → ¬s.HasLease s.nextLease) (k : String) (l : LeaseId) :
    k ∈ (op.run s).boundKeys l ↔ op.Binds s k l ∨ (k ∈ s.boundKeys l ∧ ¬op.Releases s k l) := by
  cases op with
  | put key value lease =>
      rw [Op.run]
      cases hp : s.put key value lease with
      | error f => simp [Op.Binds, Op.Releases, Op.Succeeds, Op.outcome, hp, Except.map]
      | ok s' =>
          have hs : (Op.put key value lease).Succeeds s := ⟨none, by rw [Op.outcome, hp]; rfl⟩
          simp only [h.mem_boundKeys_put hp, Op.Binds, Op.Releases, hs, Op.put.injEq]
          by_cases hk : k = key
          · subst hk
            simp
          · simp [hk, Ne.symm hk]
  | delete key =>
      rw [Op.run]
      cases hd : s.delete key with
      | error f => simp [Op.Binds, Op.Releases, Op.Succeeds, Op.outcome, hd, Except.map]
      | ok s' =>
          have hs : (Op.delete key).Succeeds s := ⟨none, by rw [Op.outcome, hd]; rfl⟩
          simp [h.mem_boundKeys_delete hd, Op.Binds, Op.Releases, hs, and_comm, eq_comm]
  | grant =>
      rw [Op.run]
      cases hg : s.grant with
      | error f => simp [Op.Binds, Op.Releases]
      | ok r =>
          obtain ⟨hid, -⟩ := leases_of_grant hg
          have hother : k ∈ s.boundKeys l → l ≠ r.2 := by
            rintro hm rfl
            exact hnew rfl (hid ▸ .of_mem_boundKeys hm)
          simpa [mem_boundKeys_of_grant hg, Op.Binds, Op.Releases] using hother
  | expire id =>
      rw [Op.run, mem_boundKeys_expire, and_comm]
      simp [Op.Binds, Op.Releases, eq_comm]
  | setAvailable on => simp [Op.Binds, Op.Releases, Op.run, boundKeys, lease?]
  | setRejectsKeepAlive on => simp [Op.Binds, Op.Releases, Op.run, boundKeys, lease?]

/-! ### The numbers of the leases -/

def leaseIds (s : Store) : List LeaseId := s.leases.map (·.id)

theorem hasLease_iff_mem_leaseIds (s : Store) (l : LeaseId) : s.HasLease l ↔ l ∈ s.leaseIds := by
  rw [HasLease, lease?, List.find?_isSome, leaseIds, List.mem_map]
  simp only [decide_eq_true_eq]

@[simp] theorem leaseIds_updateLease (s : Store) (id : LeaseId) (f : KeyMap Unit → KeyMap Unit) :
    (s.updateLease id f).leaseIds = s.leaseIds := by
  rw [leaseIds, updateLease, List.map_map, leaseIds]
  refine List.map_congr_left fun l _ => ?_
  dsimp only [Function.comp_apply]
  split <;> rfl

@[simp] theorem leaseIds_unbind (s : Store) (key : String) :
    (s.unbind key).leaseIds = s.leaseIds := by
  rw [unbind]
  split
  · exact leaseIds_updateLease ..
  · rfl

theorem leaseIds_of_leases (h : s'.leases = s.leases) : s'.leaseIds = s.leaseIds := by
  rw [leaseIds, h, leaseIds]

theorem leaseIds_of_grant {id : LeaseId} (h : s.grant = .ok (s', id)) :
    s'.leaseIds = (s.leaseIds.filter fun l => l ≠ id) ++ [id] := by
  rw [leaseIds, (leases_of_grant h).2.1, List.map_append, leaseIds, List.filter_map]
  rfl

/-- A use either grants the next lease, or no lease comes and the number is kept for later. -/
theorem numbers_run (s : Store) (op : Op) :
    (op.granted? s = none ∧ (op.run s).nextLease = s.nextLease ∧
        (op.run s).leaseIds.Sublist s.leaseIds) ∨
      (op.granted? s = some s.nextLease ∧ (op.run s).nextLease = s.nextLease + 1 ∧
        (op.run s).leaseIds.Sublist (s.leaseIds ++ [s.nextLease])) := by
  cases op with
  | put key value lease =>
      left
      rw [Op.granted?, Op.outcome, Op.run]
      cases hp : s.put key value lease with
      | error f => exact ⟨rfl, rfl, .refl _⟩
      | ok s' =>
          refine ⟨rfl, nextLease_of_put hp, ?_⟩
          have hl := leases_of_put hp
          cases lease with
          | none => simp [leaseIds_of_leases hl]
          | some id => simp [leaseIds_of_leases hl.2, bind]
  | delete key =>
      left
      rw [Op.granted?, Op.outcome, Op.run]
      cases hd : s.delete key with
      | error f => exact ⟨rfl, rfl, .refl _⟩
      | ok s' =>
          refine ⟨rfl, nextLease_of_delete hd, ?_⟩
          rcases leases_of_delete hd with hl | rfl
          · simp [leaseIds_of_leases hl]
          · exact .refl _
  | grant =>
      rw [Op.granted?, Op.outcome, Op.run]
      cases hg : s.grant with
      | error f => exact .inl ⟨rfl, rfl, .refl _⟩
      | ok r =>
          obtain ⟨hid, -, hn⟩ := leases_of_grant hg
          refine .inr ⟨by rw [← hid]; rfl, hn, ?_⟩
          rw [leaseIds_of_grant hg, ← hid]
          exact List.filter_sublist.append_right _
  | expire id =>
      refine .inl ⟨rfl, (foldl_drop_settings _ _).1, ?_⟩
      rw [Op.run, leaseIds, expire, foldl_drop_leases]
      exact List.filter_sublist.map _
  | setAvailable on => exact .inl ⟨rfl, rfl, .refl _⟩
  | setRejectsKeepAlive on => exact .inl ⟨rfl, rfl, .refl _⟩

theorem nextLease_play (s : Store) (ops : List Op) :
    (s.play ops).nextLease = s.nextLease + .ofNat (granted s ops).length := by
  induction ops using List.reverseRecOn with
  | nil => exact (Int64.add_zero _).symm
  | append_singleton ops op ih =>
      rw [play_concat, granted_concat, List.length_append]
      rcases numbers_run (s.play ops) op with ⟨hg, hn, -⟩ | ⟨hg, hn, -⟩
      · simp [hg, hn, ih]
      · rw [hn, ih, hg, Int64.ofNat_add, Int64.add_assoc]
        rfl

/-- Leases are numbered in the order in which they are granted. -/
theorem granted_eq_map (s : Store) (ops : List Op) :
    granted s ops =
      (List.range (granted s ops).length).map fun i => s.nextLease + .ofNat i := by
  induction ops using List.reverseRecOn with
  | nil => rfl
  | append_singleton ops op ih =>
      rw [granted_concat]
      rcases numbers_run (s.play ops) op with ⟨hg, -⟩ | ⟨hg, -⟩
      · simpa [hg] using ih
      · rw [hg, Option.toList_some, List.length_append, List.length_singleton, List.range_succ,
          List.map_append, ← ih, nextLease_play]
        rfl

/-- Numbers repeat only after all of them were used. -/
theorem add_ofNat_inj (l : LeaseId) {i j : Nat} (hi : i < 2 ^ 63) (hj : j < 2 ^ 63) :
    l + .ofNat i = l + .ofNat j ↔ i = j := by
  rw [Int64.add_right_inj]
  constructor
  · intro h
    have h' := congrArg Int64.toInt h
    rw [Int64.toInt_ofNat_of_lt hi, Int64.toInt_ofNat_of_lt hj] at h'
    exact Int.ofNat_inj.1 h'
  · exact congrArg _

theorem nodup_granted (s : Store) (ops : List Op) (hfew : (granted s ops).length < 2 ^ 63) :
    (granted s ops).Nodup := by
  rw [granted_eq_map]
  refine List.Nodup.map_on (fun i hi j hj he => ?_) List.nodup_range
  have hi := List.mem_range.1 hi
  have hj := List.mem_range.1 hj
  exact (add_ofNat_inj _ (by omega) (by omega)).1 he

theorem nextLease_not_mem_granted (s : Store) (ops : List Op)
    (hfew : (granted s ops).length < 2 ^ 63) : (s.play ops).nextLease ∉ granted s ops := by
  rw [granted_eq_map, nextLease_play, List.mem_map]
  rintro ⟨i, hi, he⟩
  have hi := List.mem_range.1 hi
  have hij := (add_ofNat_inj _ (by omega) hfew).1 he
  omega

/-- The leases that are there were granted, each once. -/
theorem leaseIds_play_sublist (ops : List Op) :
    (empty.play ops).leaseIds.Sublist (granted empty ops) := by
  induction ops using List.reverseRecOn with
  | nil => exact .refl _
  | append_singleton ops op ih =>
      rw [play_concat, granted_concat]
      rcases numbers_run (empty.play ops) op with ⟨hg, -, hl⟩ | ⟨hg, -, hl⟩
      · rw [hg, Option.toList_none, List.append_nil]
        exact hl.trans ih
      · rw [hg]
        exact hl.trans (ih.append_right _)

theorem not_hasLease_nextLease (ops : List Op) (hfew : (granted empty ops).length < 2 ^ 63) :
    ¬(empty.play ops).HasLease (empty.play ops).nextLease := by
  rw [hasLease_iff_mem_leaseIds]
  exact fun hl =>
    nextLease_not_mem_granted empty ops hfew ((leaseIds_play_sublist ops).subset hl)

theorem length_granted_le_concat (s : Store) (ops : List Op) (op : Op) :
    (granted s ops).length ≤ (granted s (ops ++ [op])).length := by
  rw [granted_concat, List.length_append]
  exact Nat.le_add_right ..

/-! ### The keys of the leases -/

theorem bound_play (ops : List Op) (hfew : (granted empty ops).length < 2 ^ 63) :
    (empty.play ops).Bound := by
  induction ops using List.reverseRecOn with
  | nil => exact bound_empty
  | append_singleton ops op ih =>
      have hfew' := Nat.lt_of_le_of_lt (length_granted_le_concat empty ops op) hfew
      rw [play_concat]
      exact (ih hfew').run op fun _ => not_hasLease_nextLease ops hfew'

theorem mem_boundKeys_play (ops : List Op) (hfew : (granted empty ops).length < 2 ^ 63)
    (k : String) (l : LeaseId) :
    k ∈ (empty.play ops).boundKeys l ↔ WrittenUnder ops k l := by
  induction ops using List.reverseRecOn with
  | nil =>
      constructor
      · rintro ⟨⟩
      · rintro ⟨before, op, after, he, -⟩
        exact absurd he (by simp)
  | append_singleton ops op ih =>
      have hfew' := Nat.lt_of_le_of_lt (length_granted_le_concat empty ops op) hfew
      rw [play_concat, (bound_play ops hfew').consistent.mem_boundKeys_run op
        fun _ => not_hasLease_nextLease ops hfew', ih hfew', writtenUnder_concat]

theorem mem_boundKeys_of_mem_leases (hn : s.leaseIds.Nodup) {x : Lease} (hx : x ∈ s.leases)
    {k : String} (hk : k ∈ x.keys.keys) : k ∈ s.boundKeys x.id := by
  have hf : s.lease? x.id = some x := (Keyed.find?_eq_some_iff hn).2 ⟨hx, rfl⟩
  rw [boundKeys, hf]
  exact hk

/-- No key is among those of two leases. -/
theorem Bound.eq_of_mem_keys (h : s.Bound) (hn : s.leaseIds.Nodup) {x y : Lease}
    (hx : x ∈ s.leases) (hy : y ∈ s.leases) {k : String} (hkx : k ∈ x.keys.keys)
    (hky : k ∈ y.keys.keys) : x = y := by
  obtain ⟨v, hv⟩ := (h k x.id).1 (mem_boundKeys_of_mem_leases hn hx hkx)
  obtain ⟨w, hw⟩ := (h k y.id).1 (mem_boundKeys_of_mem_leases hn hy hky)
  have hid : x.id = y.id := by
    rw [hv] at hw
    simpa using congrArg (Option.bind · Record.lease) hw
  exact List.inj_on_of_nodup_map hn hx hy hid

/-- What a store says about leases is what was done to it. A key is bound to the lease of its
record, which is there, and to no other; leases have numbers of their own, and so will the next
one. A lease that ends takes exactly the keys with it that were written under it last and are still
there, and touches nothing else. What is refused is refused because the store is unavailable or the
lease is not there, and has changed nothing on the way. -/
theorem binding_of_history (ops : List Op) (hfew : (granted empty ops).length < 2 ^ 63) :
    let s := empty.play ops
    ((∀ k l, k ∈ s.boundKeys l ↔ ∃ v, s.records.get? k = some ⟨v, some l⟩) ∧
      (∀ k v l, s.records.get? k = some ⟨v, some l⟩ → s.HasLease l) ∧
      ∀ x ∈ s.leases, ∀ y ∈ s.leases, ∀ k ∈ x.keys.keys, k ∈ y.keys.keys → x = y) ∧
    ((granted empty ops).Nodup ∧ (∀ l, s.HasLease l → l ∈ granted empty ops) ∧
      ∀ s' l, s.grant = .ok (s', l) → l ∉ granted empty ops ∧ ¬s.HasLease l) ∧
    (∀ l, (∀ k, k ∈ s.boundKeys l ↔ WrittenUnder ops k l) ∧
      (∀ k, (s.expire l).records.get? k =
        if k ∈ s.boundKeys l then none else s.records.get? k) ∧
      (∀ l', (s.expire l).lease? l' = if l' = l then none else s.lease? l') ∧
      (s.expire l).nextLease = s.nextLease ∧
      (s.expire l).published.toList = s.published.toList ++ (s.boundKeys l).map .delete) ∧
    ∀ op f s', Procedure.perform (Op.procedure op) s = (.error f, s') → s' = s ∧
      ((op.IsRequest ∧ s.isAvailable = false ∧ f = .storeUnreachable) ∨
        (s.isAvailable = true ∧ ∃ key value l, op = .put key value (some l) ∧ ¬s.HasLease l ∧
          f = .notFound ("lease " ++ LeaseId.text l ++ " not found"))) := by
  intro s
  have hb : s.Bound := bound_play ops hfew
  have hids := leaseIds_play_sublist ops
  have hnodup := nodup_granted empty ops hfew
  have hgranted : ∀ l, s.HasLease l → l ∈ granted empty ops := fun l hl =>
    hids.subset ((hasLease_iff_mem_leaseIds s l).1 hl)
  refine ⟨⟨hb, fun k v l hr => hb.hasLease hr, fun x hx y hy k hkx hky =>
    hb.eq_of_mem_keys (hids.nodup hnodup) hx hy hkx hky⟩, ⟨hnodup, hgranted, ?_⟩, ?_, ?_⟩
  · intro s' l hg
    obtain rfl := (leases_of_grant hg).1
    exact ⟨nextLease_not_mem_granted empty ops hfew, not_hasLease_nextLease ops hfew⟩
  · intro l
    exact ⟨fun k => mem_boundKeys_play ops hfew k l, get?_records_expire s l, lease?_expire s l,
      (foldl_drop_settings _ _).1, hb.consistent.published_expire l⟩
  · intro op f s' hp
    rw [perform_procedure] at hp
    obtain ⟨ho, rfl⟩ := Prod.mk.inj hp
    exact ⟨run_of_outcome_eq_error ho, (outcome_eq_error_iff s op f).1 ho⟩

/-- A key is written under one lease and then under another, which is not taken over by a write
under a third one that is not there. So the end of the first lease does not take it away. -/
theorem binding_of_history_moved :
    let ops : List Op := [.grant, .grant, .put "a" [1] (some 1), .put "b" [2] (some 1),
      .put "a" [3] (some 2), .put "a" [4] (some 3)]
    (granted empty ops).length < 2 ^ 63 ∧ WrittenUnder ops "a" 2 ∧ ¬WrittenUnder ops "a" 1 ∧
      WrittenUnder ops "b" 1 ∧
      ((empty.play ops).expire 1).records.get? "a" = some ⟨[3], some 2⟩ ∧
      ((empty.play ops).expire 1).records.get? "b" = none := by
  intro ops
  have hfew : (granted empty ops).length < 2 ^ 63 := by decide
  have h := (binding_of_history ops hfew).2.2.1
  refine ⟨hfew, ((h 2).1 "a").1 (by decide), fun hw => ?_, ((h 1).1 "b").1 (by decide), ?_, ?_⟩
  · exact absurd (((h 1).1 "a").2 hw) (by decide)
  · rw [(h 1).2.1]
    decide
  · rw [(h 1).2.1]
    decide

end ServiceMesh.Store
