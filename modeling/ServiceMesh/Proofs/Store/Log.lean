import Mathlib.Tactic.Common
import ServiceMesh.Store.Feed

/-!
The log of a store tells its records: what is stored under a key is what the last event of the key
wrote. So two stores of which one grew out of the other differ only by the events between them.
-/

namespace ServiceMesh

namespace Event

def value? : Event → Option (List UInt8)
  | put _ value => some value
  | delete _ => none

/-- What a list of events leaves under a key, from what was there before. -/
def record (k : String) (v : Option (List UInt8)) (es : List Event) : Option (List UInt8) :=
  es.foldl (fun v e => if e.key = k then e.value? else v) v

def write (m : KeyMap (List UInt8)) : Event → KeyMap (List UInt8)
  | put k value => m.insert k value
  | delete k => m.erase k

def records (history : List Event) : KeyMap (List UInt8) := history.foldl write ∅

@[simp] theorem record_nil (k : String) (v : Option (List UInt8)) : record k v [] = v := rfl

@[simp] theorem record_cons (k : String) (v : Option (List UInt8)) (e : Event) (es : List Event) :
    record k v (e :: es) = record k (if e.key = k then e.value? else v) es := rfl

@[simp] theorem record_append (k : String) (v : Option (List UInt8)) (es es' : List Event) :
    record k v (es ++ es') = record k (record k v es) es' :=
  List.foldl_append

theorem record_of_forall_ne {k : String} {es : List Event} (h : ∀ e ∈ es, e.key ≠ k)
    (v : Option (List UInt8)) : record k v es = v := by
  induction es with
  | nil => rfl
  | cons e es ih =>
      rw [record_cons, if_neg (h e List.mem_cons_self)]
      exact ih fun e' he' => h e' (List.mem_cons_of_mem _ he')

/-- What is there was there before, or was written. -/
theorem mem_of_record_eq_some {k : String} {v : Option (List UInt8)} {es : List Event}
    {w : List UInt8} (h : record k v es = some w) : v = some w ∨ put k w ∈ es := by
  induction es generalizing v with
  | nil => exact .inl h
  | cons e es ih =>
      rw [record_cons] at h
      rcases ih h with hv | hm
      · -- the value comes from this event exactly if it is one of the key
        by_cases hk : e.key = k
        · rw [if_pos hk] at hv
          cases e with
          | put j value =>
              obtain rfl := Option.some.inj hv
              obtain rfl : j = k := hk
              exact .inr List.mem_cons_self
          | delete j => cases hv
        · rw [if_neg hk] at hv
          exact .inl hv
      · exact .inr (List.mem_cons_of_mem _ hm)

theorem get?_write (m : KeyMap (List UInt8)) (e : Event) (k : String) :
    (write m e).get? k = if e.key = k then e.value? else m.get? k := by
  cases e with
  | put j value => simp only [write, KeyMap.get?_insert, key, value?, eq_comm]
  | delete j => simp only [write, KeyMap.get?_erase, key, value?, eq_comm]

theorem get?_foldl_write (m : KeyMap (List UInt8)) (es : List Event) (k : String) :
    (es.foldl write m).get? k = record k (m.get? k) es := by
  induction es generalizing m with
  | nil => rfl
  | cons e es ih => rw [List.foldl_cons, ih, get?_write, record_cons]

theorem get?_records (es : List Event) (k : String) : (records es).get? k = record k none es :=
  get?_foldl_write ∅ es k

end Event

namespace Store

/-! ### The uses of a store -/

/-- What can be asked of a store, or happen to it. -/
inductive Op where
  | put (key : String) (value : List UInt8) (lease : Option LeaseId)
  | delete (key : String)
  | grant
  | expire (lease : LeaseId)
  | setAvailable (on : Bool)
  | setRejectsKeepAlive (on : Bool)

/-- The store afterwards. What fails changes nothing. -/
def Op.run (s : Store) : Op → Store
  | put key value lease =>
    match s.put key value lease with
    | .ok s => s
    | .error _ => s
  | delete key =>
    match s.delete key with
    | .ok s => s
    | .error _ => s
  | grant =>
    match s.grant with
    | .ok (s, _) => s
    | .error _ => s
  | expire lease => s.expire lease
  | setAvailable on => { s with isAvailable := on }
  | setRejectsKeepAlive on => { s with rejectsKeepAlive := on }

/-- The second store has published more than the first, and these events lead from the records of
the first to its own. -/
def Grows (s s' : Store) : Prop :=
  ∃ es, s'.published.toList = s.published.toList ++ es ∧
    ∀ k, s'.get? k = Event.record k (s.get? k) es

def Logged (s : Store) : Prop :=
  ∀ k, s.get? k = Event.record k none s.published.toList

theorem Grows.of_eq {s s' : Store} (hp : s'.published = s.published)
    (hr : s'.records = s.records) : s.Grows s' :=
  ⟨[], by simp [hp], fun k => by simp [get?, hr]⟩

theorem Grows.refl (s : Store) : s.Grows s := .of_eq rfl rfl

theorem Grows.trans {s s' s'' : Store} (h : s.Grows s') (h' : s'.Grows s'') : s.Grows s'' := by
  obtain ⟨es, hp, hr⟩ := h
  obtain ⟨es', hp', hr'⟩ := h'
  refine ⟨es ++ es', by rw [hp', hp, List.append_assoc], fun k => ?_⟩
  rw [hr', hr, Event.record_append]

theorem Grows.logged {s s' : Store} (h : s.Grows s') (hs : s.Logged) : s'.Logged := by
  obtain ⟨es, hp, hr⟩ := h
  intro k
  rw [hr, hp, Event.record_append, hs k]

theorem Grows.published_isPrefixOf {s s' : Store} (h : s.Grows s') :
    s.published.toList <+: s'.published.toList := by
  obtain ⟨es, hp, -⟩ := h
  exact ⟨es, hp.symm⟩

theorem Grows.size_le {s s' : Store} (h : s.Grows s') : s.published.size ≤ s'.published.size := by
  simpa using h.published_isPrefixOf.length_le

theorem logged_empty : empty.Logged := fun _ => rfl

/-! ### What each of them does to the records -/

@[simp] theorem updateLease_records (s : Store) (id : LeaseId) (f : KeyMap Unit → KeyMap Unit) :
    (s.updateLease id f).records = s.records := rfl

@[simp] theorem updateLease_published (s : Store) (id : LeaseId) (f : KeyMap Unit → KeyMap Unit) :
    (s.updateLease id f).published = s.published := rfl

@[simp] theorem bind_records (s : Store) (key : String) (id : LeaseId) :
    (s.bind key id).records = s.records := rfl

@[simp] theorem bind_published (s : Store) (key : String) (id : LeaseId) :
    (s.bind key id).published = s.published := rfl

@[simp] theorem unbind_records (s : Store) (key : String) : (s.unbind key).records = s.records := by
  rw [unbind]
  split <;> rfl

@[simp] theorem unbind_published (s : Store) (key : String) :
    (s.unbind key).published = s.published := by
  rw [unbind]
  split <;> rfl

/-- A write that succeeds stores the record and publishes it. -/
theorem put_eq_ok {s s' : Store} {key : String} {value : List UInt8} {lease : Option LeaseId}
    (h : s.put key value lease = .ok s') :
    s'.records = s.records.insert key ⟨value, lease⟩ ∧
      s'.published = s.published.push (.put key value) := by
  rw [put] at h
  split at h
  · cases h
  · cases lease with
    | none =>
        obtain rfl := Except.ok.inj h
        simp [publish]
    | some id =>
        dsimp only at h
        split at h
        · obtain rfl := Except.ok.inj h
          simp [publish]
        · cases h

/-- A deletion that succeeds takes the record away and publishes that, if there was one. -/
theorem delete_eq_ok {s s' : Store} {key : String} (h : s.delete key = .ok s') :
    (s.records.contains key = true ∧ s'.records = s.records.erase key ∧
        s'.published = s.published.push (.delete key)) ∨
      (s.records.contains key = false ∧ s' = s) := by
  rw [delete] at h
  split at h
  · cases h
  · split at h
    · next hc =>
        obtain rfl := Except.ok.inj h
        simp [publish, hc]
    · next hc =>
        obtain rfl := Except.ok.inj h
        exact .inr ⟨by simpa using hc, rfl⟩

theorem grant_eq_ok {s s' : Store} {id : LeaseId} (h : s.grant = .ok (s', id)) :
    s'.records = s.records ∧ s'.published = s.published := by
  rw [grant] at h
  split at h
  · cases h
  · obtain ⟨rfl, -⟩ := Prod.mk.inj (Except.ok.inj h)
    exact ⟨rfl, rfl⟩

theorem get?_of_delete {s s' : Store} {key : String} (h : s.delete key = .ok s') :
    s'.get? key = none := by
  rcases delete_eq_ok h with ⟨-, hr, -⟩ | ⟨hc, rfl⟩
  · simp [get?, hr]
  · simpa [get?, KeyMap.contains] using hc

theorem grows_put {s s' : Store} {key : String} {value : List UInt8} {lease : Option LeaseId}
    (h : s.put key value lease = .ok s') : s.Grows s' := by
  obtain ⟨hr, hp⟩ := put_eq_ok h
  refine ⟨[.put key value], by simp [hp], fun k => ?_⟩
  by_cases hk : key = k
  · subst hk
    simp [get?, hr, Event.key, Event.value?]
  · simp [get?, hr, KeyMap.get?_insert_of_ne _ (Ne.symm hk), Event.key, hk]

/-- Taking a record away, with the event for it, leads on from a store. -/
theorem grows_of_erase {s s' : Store} {key : String} (hr : s'.records = s.records.erase key)
    (hp : s'.published = s.published.push (.delete key)) : s.Grows s' := by
  refine ⟨[.delete key], by simp [hp], fun k => ?_⟩
  by_cases hk : key = k
  · subst hk
    simp [get?, hr, Event.key, Event.value?]
  · simp [get?, hr, KeyMap.get?_erase_of_ne _ (Ne.symm hk), Event.key, hk]

theorem grows_delete {s s' : Store} {key : String} (h : s.delete key = .ok s') : s.Grows s' := by
  rcases delete_eq_ok h with ⟨-, hr, hp⟩ | ⟨-, rfl⟩
  · exact grows_of_erase hr hp
  · exact .refl _

theorem grows_drop (s : Store) (key : String) : s.Grows (s.drop key) := by
  rw [drop]
  split
  · exact grows_of_erase rfl rfl
  · exact .refl s

theorem grows_expire (s : Store) (id : LeaseId) : s.Grows (s.expire id) := by
  -- the induction is on the keys of the lease, with any store they are dropped from
  suffices H : ∀ (keys : List String) (t : Store), t.Grows (keys.foldl drop t) from
    Grows.trans (.of_eq rfl rfl) (H (s.boundKeys id) _)
  intro keys
  induction keys with
  | nil => exact fun t => .refl t
  | cons k keys ih => exact fun t => (grows_drop t k).trans (ih _)

/-- Whatever is done to a store, it only grows. -/
theorem grows_run (s : Store) (op : Op) : s.Grows (op.run s) := by
  cases op with
  | put key value lease =>
      rw [Op.run]
      split
      · next h => exact grows_put h
      · exact .refl s
  | delete key =>
      rw [Op.run]
      split
      · next h => exact grows_delete h
      · exact .refl s
  | grant =>
      rw [Op.run]
      split
      · next h =>
          obtain ⟨hr, hp⟩ := grant_eq_ok h
          exact .of_eq hp hr
      · exact .refl s
  | expire lease => exact grows_expire s lease
  | setAvailable on => exact .of_eq rfl rfl
  | setRejectsKeepAlive on => exact .of_eq rfl rfl

end Store

end ServiceMesh
