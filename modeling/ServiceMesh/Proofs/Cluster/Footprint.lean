import ServiceMesh.Proofs.Cluster.Stores
import ServiceMesh.Proofs.Lease.Routine

/-!
What a party can touch. A member writes and deletes one record of one store, its own, and it never
moves to another place. So whether a record is there is up to the members of its place, and in a
store that is not available nothing changes at all.
-/

namespace ServiceMesh

namespace Store

variable {s s' : Store}

theorem isAvailable_unbind (s : Store) (key : String) :
    (s.unbind key).isAvailable = s.isAvailable := by
  rw [unbind]
  split <;> rfl

theorem isAvailable_of_put {key : String} {value : List UInt8} {lease : Option LeaseId}
    (h : s.put key value lease = .ok s') : s'.isAvailable = s.isAvailable := by
  rw [put] at h
  split at h
  · cases h
  · cases lease with
    | none =>
        obtain rfl := Except.ok.inj h
        exact isAvailable_unbind s key
    | some id =>
        dsimp only at h
        split at h
        · obtain rfl := Except.ok.inj h
          exact isAvailable_unbind s key
        · cases h

theorem isAvailable_of_delete {key : String} (h : s.delete key = .ok s') :
    s'.isAvailable = s.isAvailable := by
  rw [delete] at h
  split at h
  · cases h
  · split at h
    · obtain rfl := Except.ok.inj h
      exact isAvailable_unbind s key
    · obtain rfl := Except.ok.inj h
      rfl

theorem isAvailable_of_grant {id : LeaseId} (h : s.grant = .ok (s', id)) :
    s'.isAvailable = s.isAvailable := by
  rw [grant] at h
  split at h
  · cases h
  · obtain ⟨rfl, -⟩ := Prod.mk.inj (Except.ok.inj h)
    rfl

theorem get?_of_put_of_ne {key k : String} {value : List UInt8} {lease : Option LeaseId}
    (h : s.put key value lease = .ok s') (hk : k ≠ key) : s'.get? k = s.get? k := by
  rw [get?, get?, (put_eq_ok h).1, KeyMap.get?_insert_of_ne _ hk]

theorem get?_of_delete_of_ne {key k : String} (h : s.delete key = .ok s') (hk : k ≠ key) :
    s'.get? k = s.get? k := by
  rcases delete_eq_ok h with ⟨-, hr, -⟩ | ⟨-, rfl⟩
  · rw [get?, get?, hr, KeyMap.get?_erase_of_ne _ hk]
  · rfl

/-- The second store came out of the first by a call of a member with this key. -/
structure Touched (key : String) (s s' : Store) : Prop where
  isAvailable : s'.isAvailable = s.isAvailable
  get? : ∀ k, k ≠ key → s'.get? k = s.get? k
  unavailable : s.isAvailable = false → s' = s

theorem Touched.refl (key : String) (s : Store) : s.Touched key s :=
  ⟨rfl, fun _ _ => rfl, fun _ => rfl⟩

end Store

/-- A call touches no record but that of its member. -/
theorem CallPoint.touched_perform (m : Member) (p : CallPoint) (s : Store) :
    s.Touched m.node.path (p.perform m s).1 := by
  have hoff {α : Type} {r : Except Failure α} (h : s.isAvailable = false) (x : α)
      (hr : (if ¬s.isAvailable then .error .storeUnreachable else r) = .ok x) : False := by
    rw [if_pos (by simp [h])] at hr
    cases hr
  cases p with
  | grant =>
      rw [perform]
      split
      · next h =>
          exact ⟨Store.isAvailable_of_grant h, fun k _ => by
            rw [Store.get?, (Store.grant_eq_ok h).1]; rfl, fun hs => (hoff hs _ h).elim⟩
      · exact .refl _ s
  | publish lease =>
      rw [perform]
      split
      · next h =>
          exact ⟨Store.isAvailable_of_put h, fun k hk => Store.get?_of_put_of_ne h hk,
            fun hs => (hoff hs _ h).elim⟩
      · exact .refl _ s
  | withdraw =>
      rw [perform]
      split
      · next h =>
          exact ⟨Store.isAvailable_of_delete h, fun k hk => Store.get?_of_delete_of_ne h hk,
            fun hs => (hoff hs _ h).elim⟩
      · exact .refl _ s
  | retire =>
      rw [perform]
      split
      · next h =>
          exact ⟨Store.isAvailable_of_delete h, fun k hk => Store.get?_of_delete_of_ne h hk,
            fun hs => (hoff hs _ h).elim⟩
      · exact .refl _ s
  | scan => exact .refl _ s
  | renew lease => exact .refl _ s

namespace Cluster

def place? (c : Cluster) (q : String) : Option (Nat × String) :=
  (c.leased? q).map fun l => (l.store, l.member.node.path)

/-- The second cluster came out of the first by work of a party. No time passed, nobody has moved,
and in no place has anything changed but in that of the party, and not even there if the store is
not available. -/
structure Works (q : String) (c c' : Cluster) : Prop where
  now : c'.now = c.now
  place : ∀ r, c'.place? r = c.place? r
  length : c'.stores.length = c.stores.length
  isAvailable : ∀ i, (c'.store i).isAvailable = (c.store i).isAvailable
  get? : ∀ i k, (c.store i).isAvailable = false ∨ c.place? q ≠ some (i, k) →
    (c'.store i).get? k = (c.store i).get? k

variable {c c' c'' : Cluster} {p q : String}

theorem Works.trans (h : c.Works q c') (h' : c'.Works q c'') : c.Works q c'' where
  now := h'.now.trans h.now
  place r := (h'.place r).trans (h.place r)
  length := h'.length.trans h.length
  isAvailable i := (h'.isAvailable i).trans (h.isAvailable i)
  get? i k hik := by
    rw [h'.get? i k (by rwa [h.isAvailable, h.place]), h.get? i k hik]

theorem Works.of_eq (hn : c'.now = c.now) (hs : c'.stores = c.stores)
    (hp : ∀ r, c'.place? r = c.place? r) : c.Works q c' where
  now := hn
  place := hp
  length := by rw [hs]
  isAvailable i := by rw [store, store, hs]
  get? i k _ := by rw [store, store, hs]

theorem Works.refl (q : String) (c : Cluster) : c.Works q c := .of_eq rfl rfl fun _ => rfl

theorem Alike.works (h : c.Alike c') : c.Works q c' :=
  .of_eq h.now h.stores fun r => by rw [place?, place?, h.leased?]

theorem works_setBus (c : Cluster) (r : String) (b : Bus) : c.Works q (c.setBus r b) :=
  .of_eq (setBus_now c r b) (setBus_stores c r b) fun _ => by rw [place?, place?, leased?_setBus]

theorem works_setTask (c : Cluster) (id : Nat) (w : Option Work) : c.Works q (c.setTask id w) :=
  .of_eq rfl rfl fun _ => rfl

theorem works_setMember {m m' : Member} (hm : c.member? q = some m) (h : m'.node = m.node) :
    c.Works q (c.setMember q m') := by
  refine .of_eq (setMember_now c q m') (setMember_stores c q m') fun r => ?_
  obtain ⟨l, hl, rfl⟩ := Option.map_eq_some_iff.1 hm
  by_cases hr : r = q
  · subst hr
    rw [place?, leased?_setMember_self hl, place?, hl]
    simp [h]
  · rw [place?, leased?_setMember_of_ne hr, place?]

/-- A member uses its store. -/
theorem works_setStore {l : Leased} {s : Store} (hl : c.leased? q = some l)
    (h : (c.store l.store).Touched l.member.node.path s) : c.Works q (c.setStore l.store s) := by
  have hstore (i : Nat) : (c.setStore l.store s).store i = c.store i ∨
      i = l.store ∧ (c.setStore l.store s).store i = s := by
    by_cases hi : i = l.store
    · subst hi
      by_cases hlt : l.store < c.stores.length
      · exact .inr ⟨rfl, store_setStore_self hlt s⟩
      · exact .inl (store_setStore_of_le (Nat.le_of_not_lt hlt) s _)
    · exact .inl (store_setStore_of_ne (Ne.symm hi) s)
  refine ⟨rfl, fun _ => rfl, length_stores_setStore c _ s, fun i => ?_, fun i k hik => ?_⟩
  · rcases hstore i with hi | ⟨rfl, hi⟩
    · rw [hi]
    · rw [hi, h.isAvailable]
  · rcases hstore i with hi | ⟨rfl, hi⟩
    · rw [hi]
    · rw [hi]
      rcases hik with hoff | hne
      · rw [h.unavailable hoff]
      · refine h.get? k fun hk => hne ?_
        rw [place?, hl, hk]
        rfl

theorem works_stepFlight {f : Flight} {r : Cluster × (Wait ⊕ Except Failure Unit)}
    (hr : c.stepFlight q f = some r) : c.Works q r.1 := by
  rw [stepFlight] at hr
  obtain ⟨l, hl, hr⟩ := Option.bind_eq_some_iff.1 hr
  have hm : c.member? q = some l.member := by
    rw [member?, hl]
    rfl
  have hanswer (reply : Except Failure f.point.Reply) :
      c.Works q (c.answer q l.member f.point reply).1 :=
    works_setMember hm (Member.alike_resume _ _ _ _).node
  split at hr
  · split at hr
    · obtain rfl := Option.some.inj hr
      exact works_setStore hl (CallPoint.touched_perform _ _ _)
    · split at hr
      · obtain rfl := Option.some.inj hr
        exact hanswer _
      · cases hr
  · split at hr
    · obtain rfl := Option.some.inj hr
      exact hanswer _
    · split at hr
      · obtain rfl := Option.some.inj hr
        exact hanswer _
      · cases hr

theorem works_stepWait {w : Wait} {r : Cluster × (Wait ⊕ Except Failure Unit)}
    (hr : c.stepWait q w = some r) : c.Works q r.1 := by
  cases w with
  | call f => exact works_stepFlight hr
  | notice n point =>
      rw [stepWait] at hr
      split at hr
      · split at hr
        · cases hr
        · obtain rfl := Option.some.inj hr
          exact works_setBus c q _
      · dsimp only at hr
        split at hr
        · next m hm =>
            obtain rfl := Option.some.inj hr
            exact (works_setBus c q _).trans (works_setMember hm (Member.alike_notified _ _).node)
        · obtain rfl := Option.some.inj hr
          exact works_setBus c q _

theorem works_watchBroke (c : Cluster) (q : String) : c.Works q (c.watchBroke q).1 := by
  rw [watchBroke]
  split
  · next m hm => exact works_setMember hm rfl
  · exact .refl q c

theorem works_applyBatch (c : Cluster) (q : String) (feed : Feed) (injected : List Injection)
    (events : List Event) : c.Works q (c.applyBatch q feed injected events).1 := by
  rw [applyBatch]
  split
  · next m hm =>
      have hset : c.Works q (c.continueWith q (m.applyEvents events)).1 :=
        works_setMember hm (m.alike_applyEvents events).node
      split
      · next hw => rwa [hw] at hset
      · next hw => rwa [hw] at hset
  · exact .refl q c

/-- A step of a task is work of its party. -/
theorem works_stepTask {t : Task} (h : c.stepTask t = some c') : c.Works t.work.party c' := by
  obtain ⟨id, work⟩ := t
  cases work with
  | routine q w =>
      rw [stepTask] at h
      dsimp only at h
      split at h
      · cases h
      · next hs =>
          obtain rfl := Option.some.inj h
          exact (works_stepWait hs).trans (works_setTask _ _ _)
      · next hs =>
          obtain rfl := Option.some.inj h
          exact (works_stepWait hs).trans (.of_eq rfl rfl fun _ => rfl)
  | keepAlive q loop =>
      obtain ⟨r, hr, rfl⟩ := Option.map_eq_some_iff.1 h
      refine Works.trans ?_ (works_setTask _ _ _)
      obtain he | ⟨w, s, -, hs, rfl⟩ := (stepKeepAlive_eq_some hr).2
      · exact he ▸ .refl q c
      · exact works_stepWait hs
  | watch q loop =>
      obtain ⟨r, hr, rfl⟩ := Option.map_eq_some_iff.1 h
      refine Works.trans ?_ (works_setTask _ _ _)
      obtain ⟨he, -⟩ | rfl | ⟨_, _, read, rest, events, -, rfl⟩ | ⟨_, _, w, s, -, hs, rfl⟩ :=
        stepWatch_eq_some hr
      · exact he ▸ .refl q c
      · exact works_watchBroke c q
      · exact works_applyBatch c q read rest events
      · exact works_stepWait hs
  | follow q sink who =>
      obtain ⟨r, hr, rfl⟩ := Option.map_eq_some_iff.1 h
      refine Works.trans ?_ (works_setTask _ _ _)
      rw [stepFollow] at hr
      split at hr
      · obtain rfl := Option.some.inj hr
        exact .refl q c
      · split at hr
        · obtain rfl := Option.some.inj hr
          exact (works_setBus c q _).trans (alike_refresh _ who).works
        · cases hr

theorem works_startLoops (c : Cluster) (q : String) : c.Works q (c.startLoops q) := by
  rw [startLoops]
  split
  · exact .refl q c
  · next m hm =>
      split
      · exact .refl q c
      · have hset : c.Works q (c.setMember q { m with isStarted := true }) :=
          works_setMember hm rfl
        exact hset.trans (.of_eq rfl rfl fun _ => rfl)

end Cluster

end ServiceMesh
