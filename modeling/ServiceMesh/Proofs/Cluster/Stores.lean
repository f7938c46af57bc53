import ServiceMesh.Proofs.Cluster.Frame
import ServiceMesh.Proofs.Store.Binding

/-!
What a run does to a store: every act uses it at most once. So what each of its operations keeps,
every run keeps, whoever uses the store and however often.
-/

namespace ServiceMesh

/-- Whether the use is the end of a lease, which nobody asks for. -/
def Store.Op.expires : Store.Op → Bool
  | expire _ => true
  | _ => false

def Cluster.Act.expires : Cluster.Act → Bool
  | use _ op => op.expires
  | _ => false

namespace Store

variable {s s' : Store}

/-- The store is as it was, or someone has used it once. -/
def Serves (s s' : Store) : Prop := s' = s ∨ ∃ op : Op, op.expires = false ∧ s' = op.run s

theorem Serves.refl (s : Store) : s.Serves s := .inl rfl

theorem Serves.use (s : Store) {op : Op} (h : op.expires = false) : s.Serves (op.run s) :=
  .inr ⟨op, h, rfl⟩

theorem Serves.consistent (h : s.Serves s') (hc : s.Consistent) : s'.Consistent := by
  obtain rfl | ⟨op, -, rfl⟩ := h
  · exact hc
  · exact hc.run op

/-- The lease that is granted is the one whose number is used up by that. -/
theorem ne_of_grant {id l : LeaseId} (h : s.grant = .ok (s', id))
    (hnew : l = s.nextLease → s'.nextLease = s.nextLease) : l ≠ id := by
  rintro rfl
  -- the lease is new, and so the next one has another number
  obtain ⟨hid, -, hnext⟩ := leases_of_grant h
  rw [hnext] at hnew
  exact absurd (Int64.add_eq_left.1 (hnew hid)) (by decide)

/-- A lease that is there was there before, or has just been granted. -/
theorem Serves.hasLease_before (h : s.Serves s') {l : LeaseId}
    (hnew : l = s.nextLease → s'.nextLease = s.nextLease) (hl : s'.HasLease l) : s.HasLease l := by
  obtain rfl | ⟨op, hop, rfl⟩ := h
  · exact hl
  · cases op with
    | put key value lease =>
        rw [Op.run] at hl
        split at hl
        · next hp => exact (hasLease_of_put hp l).1 hl
        · exact hl
    | delete key =>
        rw [Op.run] at hl
        split at hl
        · next hd => exact (hasLease_of_delete hd l).1 hl
        · exact hl
    | grant =>
        rw [Op.run] at hnew hl
        cases hg : s.grant with
        | error f =>
            rw [hg] at hl
            exact hl
        | ok r =>
            rw [hg] at hnew hl
            exact ((hasLease_of_grant hg l).1 hl).resolve_right (ne_of_grant hg hnew)
    | expire lease => cases hop
    | setAvailable on => exact hl
    | setRejectsKeepAlive on => exact hl

/-- Nobody takes a lease away. -/
theorem Serves.hasLease (h : s.Serves s') {l : LeaseId} (hl : s.HasLease l) : s'.HasLease l := by
  obtain rfl | ⟨op, hop, rfl⟩ := h
  · exact hl
  · cases op with
    | put key value lease =>
        rw [Op.run]
        split
        · next hp => exact (hasLease_of_put hp l).2 hl
        · exact hl
    | delete key =>
        rw [Op.run]
        split
        · next hd => exact (hasLease_of_delete hd l).2 hl
        · exact hl
    | grant =>
        rw [Op.run]
        split
        · next hg => exact (hasLease_of_grant hg l).2 (.inl hl)
        · exact hl
    | expire lease => cases hop
    | setAvailable on => exact hl
    | setRejectsKeepAlive on => exact hl

/-- A key stays bound to its lease until someone writes or deletes its record, or the number of
the lease is given out once more. -/
theorem Serves.mem_boundKeys (h : s.Serves s') (hc : s.Consistent) {k : String} {l : LeaseId}
    (hm : k ∈ s.boundKeys l) (hk : s'.records.get? k = s.records.get? k)
    (hnew : l = s.nextLease → s'.nextLease = s.nextLease) : k ∈ s'.boundKeys l := by
  obtain ⟨v, hr⟩ := hc k l hm
  obtain rfl | ⟨op, hop, rfl⟩ := h
  · exact hm
  · cases op with
    | put key value lease =>
        rw [Op.run] at hk ⊢
        cases hp : s.put key value lease with
        | error f => exact hm
        | ok s' =>
            rw [hp] at hk
            refine (hc.mem_boundKeys_put hp k l).2 ?_
            by_cases he : k = key
            · subst he
              rw [(put_eq_ok hp).1, KeyMap.get?_insert, if_pos rfl, hr] at hk
              exact .inl ⟨congrArg Record.lease (Option.some.inj hk), rfl⟩
            · exact .inr ⟨he, hm⟩
    | delete key =>
        rw [Op.run] at hk ⊢
        cases hd : s.delete key with
        | error f => exact hm
        | ok s' =>
            rw [hd] at hk
            refine (hc.mem_boundKeys_delete hd k l).2 ⟨fun he => ?_, hm⟩
            rw [get?_records_of_delete hd, if_pos he, hr] at hk
            cases hk
    | grant =>
        rw [Op.run] at hnew ⊢
        cases hg : s.grant with
        | error f => exact hm
        | ok r =>
            rw [hg] at hnew
            exact (mem_boundKeys_of_grant hg k l).2 ⟨ne_of_grant hg hnew, hm⟩
    | expire lease => cases hop
    | setAvailable on => exact hm
    | setRejectsKeepAlive on => exact hm

/-- A record that goes with a lease is there until someone writes or deletes it, or the number of
the lease is given out once more. -/
theorem Serves.holds (h : s.Serves s') (hc : s.Consistent) {k : String} {v : List UInt8}
    {l : LeaseId} (hold : s.Holds k v l) (hk : s'.records.get? k = s.records.get? k)
    (hnew : l = s.nextLease → s'.nextLease = s.nextLease) : s'.Holds k v l := by
  intro hl
  obtain ⟨hr, hm⟩ := hold (h.hasLease_before hnew hl)
  exact ⟨hk.trans hr, h.mem_boundKeys hc hm hk hnew⟩

/-- Nor does the end of another lease touch the record. -/
theorem Consistent.holds_expire (hc : s.Consistent) {k : String} {v : List UInt8} {l : LeaseId}
    (hold : s.Holds k v l) (id : LeaseId) : (s.expire id).Holds k v l := by
  intro hl
  obtain ⟨hl, hne⟩ := (hasLease_expire s id l).1 hl
  obtain ⟨hr, hm⟩ := hold hl
  exact ⟨hc.get?_records_expire hr (Ne.symm hne), (mem_boundKeys_expire s id k l).2 ⟨hne, hm⟩⟩

end Store

/-- A call is at most one use of the store. -/
theorem CallPoint.serves_perform (m : Member) (p : CallPoint) (s : Store) :
    s.Serves (p.perform m s).1 := by
  cases p with
  | grant =>
      refine .inr ⟨.grant, rfl, ?_⟩
      rw [perform, Store.Op.run]
      cases s.grant <;> rfl
  | publish lease =>
      refine .inr ⟨.put m.node.path m.node.encode (some lease), rfl, ?_⟩
      rw [perform, Store.Op.run]
      cases s.put m.node.path m.node.encode (some lease) <;> rfl
  | withdraw =>
      refine .inr ⟨.delete m.node.path, rfl, ?_⟩
      rw [perform, Store.Op.run]
      cases s.delete m.node.path <;> rfl
  | scan => exact .refl s
  | renew lease => exact .refl s
  | retire =>
      refine .inr ⟨.delete m.node.path, rfl, ?_⟩
      rw [perform, Store.Op.run]
      cases s.delete m.node.path <;> rfl

namespace Cluster

variable {c c' : Cluster} {q : String}

theorem serves_of_stores (h : c'.stores = c.stores) (i : Nat) :
    (c.store i).Serves (c'.store i) := by
  rw [store, store, h]
  exact .refl _

theorem serves_setStore {i : Nat} {s : Store} (h : (c.store i).Serves s) (j : Nat) :
    (c.store j).Serves ((c.setStore i s).store j) := by
  by_cases hij : i = j
  · subst hij
    by_cases hi : i < c.stores.length
    · rwa [store_setStore_self hi]
    · rw [store_setStore_of_le (Nat.le_of_not_lt hi)]
      exact .refl _
  · rw [store_setStore_of_ne hij]
    exact .refl _

theorem serves_stepFlight {f : Flight} {r : Cluster × (Wait ⊕ Except Failure Unit)}
    (hr : c.stepFlight q f = some r) (i : Nat) : (c.store i).Serves (r.1.store i) := by
  rw [stepFlight] at hr
  obtain ⟨l, -, hr⟩ := Option.bind_eq_some_iff.1 hr
  split at hr
  · split at hr
    · obtain rfl := Option.some.inj hr
      exact serves_setStore (CallPoint.serves_perform _ _ _) i
    · split at hr
      · obtain rfl := Option.some.inj hr
        exact serves_of_stores (setMember_stores c q _) i
      · cases hr
  · split at hr
    · obtain rfl := Option.some.inj hr
      exact serves_of_stores (setMember_stores c q _) i
    · split at hr
      · obtain rfl := Option.some.inj hr
        exact serves_of_stores (setMember_stores c q _) i
      · cases hr

theorem serves_stepWait {w : Wait} {r : Cluster × (Wait ⊕ Except Failure Unit)}
    (hr : c.stepWait q w = some r) (i : Nat) : (c.store i).Serves (r.1.store i) := by
  cases w with
  | call f => exact serves_stepFlight hr i
  | notice n point =>
      rw [stepWait] at hr
      split at hr
      · split at hr
        · cases hr
        · obtain rfl := Option.some.inj hr
          exact serves_of_stores (setBus_stores c q _) i
      · dsimp only at hr
        split at hr
        · obtain rfl := Option.some.inj hr
          exact serves_of_stores ((setMember_stores _ q _).trans (setBus_stores c q _)) i
        · obtain rfl := Option.some.inj hr
          exact serves_of_stores (setBus_stores c q _) i

theorem stores_watchBroke (c : Cluster) (q : String) : (c.watchBroke q).1.stores = c.stores := by
  rw [watchBroke]
  split
  · exact setMember_stores c q _
  · rfl

theorem stores_applyBatch (c : Cluster) (q : String) (feed : Feed) (injected : List Injection)
    (events : List Event) : (c.applyBatch q feed injected events).1.stores = c.stores := by
  rw [applyBatch]
  split
  · next m _ =>
      have hset : (c.continueWith q (m.applyEvents events)).1.stores = c.stores :=
        setMember_stores c q _
      split
      · next hw => rwa [hw] at hset
      · next hw => rwa [hw] at hset
  · rfl

theorem stores_stepFollow {sink : Nat} {who : Follower} {r : Cluster × Option Work}
    (hr : c.stepFollow q sink who = some r) : r.1.stores = c.stores := by
  rw [stepFollow] at hr
  split at hr
  · obtain rfl := Option.some.inj hr
    rfl
  · split at hr
    · obtain rfl := Option.some.inj hr
      exact (alike_refresh _ who).stores.trans (setBus_stores c q _)
    · cases hr

theorem serves_stepTask {t : Task} (h : c.stepTask t = some c') (i : Nat) :
    (c.store i).Serves (c'.store i) := by
  obtain ⟨id, work⟩ := t
  cases work with
  | routine q w =>
      rw [stepTask] at h
      dsimp only at h
      split at h
      · cases h
      · next hs =>
          obtain rfl := Option.some.inj h
          exact serves_stepWait hs i
      · next hs =>
          obtain rfl := Option.some.inj h
          exact serves_stepWait hs i
  | keepAlive q loop =>
      obtain ⟨r, hr, rfl⟩ := Option.map_eq_some_iff.1 h
      obtain he | ⟨w, s, -, hs, rfl⟩ := (stepKeepAlive_eq_some hr).2
      · exact serves_of_stores (congrArg Cluster.stores he) i
      · exact serves_stepWait hs i
  | watch q loop =>
      obtain ⟨r, hr, rfl⟩ := Option.map_eq_some_iff.1 h
      obtain ⟨he, -⟩ | rfl | ⟨_, _, read, rest, events, -, rfl⟩ | ⟨_, _, w, s, -, hs, rfl⟩ :=
        stepWatch_eq_some hr
      · exact serves_of_stores (congrArg Cluster.stores he) i
      · exact serves_of_stores (stores_watchBroke c q) i
      · exact serves_of_stores (stores_applyBatch c q read rest events) i
      · exact serves_stepWait hs i
  | follow q sink who =>
      obtain ⟨r, hr, rfl⟩ := Option.map_eq_some_iff.1 h
      exact serves_of_stores (stores_stepFollow hr) i

theorem stores_startLoops (c : Cluster) (q : String) : (c.startLoops q).stores = c.stores := by
  rw [startLoops]
  split
  · rfl
  · split
    · rfl
    · exact setMember_stores c q _

theorem stores_start (c : Cluster) (q : String) (r : Routine) :
    (c.start q r).stores = c.stores := by
  rw [start]
  split
  · rfl
  · next m _ =>
      have hset : (c.continueWith q (m.start c.now r)).1.stores = c.stores :=
        setMember_stores c q _
      split
      · next hc => rwa [hc] at hset
      · next hc => rwa [hc] at hset

/-- Whatever is done in a cluster, if it is not the end of a lease, uses a store at most once. -/
theorem serves_act (c : Cluster) {a : Act} (ha : a.expires = false) (i : Nat) :
    (c.store i).Serves ((c.act a).store i) := by
  cases a with
  | step id =>
      rw [act]
      split
      · next t _ =>
          cases hs : c.stepTask t with
          | none => exact .refl _
          | some c' => exact serves_stepTask hs i
      · exact .refl _
  | pass ms => exact .refl _
  | use j op => exact serves_setStore (.use _ ha) i
  | slow q k d =>
      rw [act, setDelay]
      split
      · exact serves_of_stores (setLeased_stores c q _) i
      · exact .refl _
  | join q P => exact .refl _
  | start q r => exact serves_of_stores (stores_start c q r) i
  | register q =>
      rw [act]
      split
      · exact .refl _
      · exact serves_of_stores (stores_startLoops c q) i
  | drop id => exact .refl _
  | feedIn q what => exact .refl _
  | useBus q op => exact serves_of_stores (setBus_stores c q _) i

/-- The end of a lease is nothing else. -/
theorem store_act_of_expires (c : Cluster) {a : Act} (ha : a.expires = true) (i : Nat) :
    (c.act a).store i = c.store i ∨ ∃ l, (c.act a).store i = (c.store i).expire l := by
  cases a with
  | use j op =>
      cases op with
      | expire l =>
          by_cases hj : j = i
          · subst hj
            by_cases hi : j < c.stores.length
            · exact .inr ⟨l, store_setStore_self hi _⟩
            · exact .inl (store_setStore_of_le (Nat.le_of_not_lt hi) _ j)
          · exact .inl (store_setStore_of_ne hj _)
      | _ => cases ha
  | _ => cases ha

end Cluster

end ServiceMesh
