import ServiceMesh.Proofs.Cluster.Run

/-!
What the parts of a cluster are after a change of one of them, and what the work of one party
leaves alone: other parties and all tasks stay as they are, and stores only grow.
-/

namespace ServiceMesh

namespace Cluster

/-! ### Stores -/

@[simp] theorem length_stores_setStore (c : Cluster) (i : Nat) (s : Store) :
    (c.setStore i s).stores.length = c.stores.length := List.length_set

theorem store_setStore_self {c : Cluster} {i : Nat} (h : i < c.stores.length) (s : Store) :
    (c.setStore i s).store i = s := by
  simp [store, setStore, List.getD_eq_getElem?_getD, h]

theorem store_setStore_of_ne {c : Cluster} {i j : Nat} (h : i ≠ j) (s : Store) :
    (c.setStore i s).store j = c.store j := by
  simp [store, setStore, List.getD_eq_getElem?_getD, List.getElem?_set_ne h]

/-- A store that there is not stays empty. -/
theorem store_setStore_of_le {c : Cluster} {i : Nat} (h : c.stores.length ≤ i) (s : Store)
    (j : Nat) : (c.setStore i s).store j = c.store j := by
  rw [store, setStore, List.set_eq_of_length_le h, store]

theorem grows_setStore {c : Cluster} {i : Nat} {s : Store} (h : (c.store i).Grows s) (j : Nat) :
    (c.store j).Grows ((c.setStore i s).store j) := by
  by_cases hij : i = j
  · subst hij
    by_cases hi : i < c.stores.length
    · rwa [store_setStore_self hi]
    · rw [store_setStore_of_le (Nat.le_of_not_lt hi)]
      exact .refl _
  · rw [store_setStore_of_ne hij]
    exact .refl _

/-! ### Parties -/

theorem party?_setParty (c : Cluster) (q p : String) (P : Party) :
    (c.setParty q P).party? p = if p = q then some P else c.party? p :=
  KeyMap.get?_insert c.parties q p P

theorem leased?_setParty_of_ne {p q : String} (h : p ≠ q) (c : Cluster) (P : Party) :
    (c.setParty q P).leased? p = c.leased? p := by
  rw [leased?, leased?, party?_setParty, if_neg h]

/-- Nothing but the parties changes with a bus. -/
theorem exists_setBus_eq (c : Cluster) (q : String) (b : Bus) :
    ∃ parties, c.setBus q b = { c with parties } := by
  rw [setBus]
  split
  · exact ⟨_, rfl⟩
  · exact ⟨_, rfl⟩

@[simp] theorem setBus_now (c : Cluster) (q : String) (b : Bus) : (c.setBus q b).now = c.now := by
  obtain ⟨ps, hps⟩ := exists_setBus_eq c q b
  rw [hps]

@[simp] theorem setBus_stores (c : Cluster) (q : String) (b : Bus) :
    (c.setBus q b).stores = c.stores := by
  obtain ⟨ps, hps⟩ := exists_setBus_eq c q b
  rw [hps]

@[simp] theorem setBus_tasks (c : Cluster) (q : String) (b : Bus) :
    (c.setBus q b).tasks = c.tasks := by
  obtain ⟨ps, hps⟩ := exists_setBus_eq c q b
  rw [hps]

@[simp] theorem setBus_nextTask (c : Cluster) (q : String) (b : Bus) :
    (c.setBus q b).nextTask = c.nextTask := by
  obtain ⟨ps, hps⟩ := exists_setBus_eq c q b
  rw [hps]

@[simp] theorem leased?_setBus (c : Cluster) (q : String) (b : Bus) (p : String) :
    (c.setBus q b).leased? p = c.leased? p := by
  rw [setBus]
  split
  · next P hP =>
      by_cases hpq : p = q
      · subst hpq
        rw [leased?, party?_setParty, if_pos rfl, leased?, hP]
        cases P with
        | mk bus registrar => cases registrar <;> rfl
      · exact leased?_setParty_of_ne hpq c _
  · rfl

theorem exists_setLeased_eq (c : Cluster) (q : String) (l : Leased) :
    ∃ parties, c.setLeased q l = { c with parties } := by
  rw [setLeased]
  split
  · exact ⟨_, rfl⟩
  · exact ⟨_, rfl⟩

@[simp] theorem setLeased_now (c : Cluster) (q : String) (l : Leased) :
    (c.setLeased q l).now = c.now := by
  obtain ⟨ps, hps⟩ := exists_setLeased_eq c q l
  rw [hps]

@[simp] theorem setLeased_stores (c : Cluster) (q : String) (l : Leased) :
    (c.setLeased q l).stores = c.stores := by
  obtain ⟨ps, hps⟩ := exists_setLeased_eq c q l
  rw [hps]

@[simp] theorem setLeased_tasks (c : Cluster) (q : String) (l : Leased) :
    (c.setLeased q l).tasks = c.tasks := by
  obtain ⟨ps, hps⟩ := exists_setLeased_eq c q l
  rw [hps]

@[simp] theorem setLeased_nextTask (c : Cluster) (q : String) (l : Leased) :
    (c.setLeased q l).nextTask = c.nextTask := by
  obtain ⟨ps, hps⟩ := exists_setLeased_eq c q l
  rw [hps]

theorem leased?_setLeased_of_ne {p q : String} (h : p ≠ q) (c : Cluster) (l : Leased) :
    (c.setLeased q l).leased? p = c.leased? p := by
  rw [setLeased]
  split
  · exact leased?_setParty_of_ne h c _
  · rfl

theorem leased?_setLeased_self {c : Cluster} {p : String} {l : Leased} (h : c.leased? p = some l)
    (l' : Leased) : (c.setLeased p l').leased? p = some l' := by
  rw [setLeased]
  split
  · rw [leased?, party?_setParty, if_pos rfl]
  · next hn => simp [leased?, hn] at h

theorem exists_setMember_eq (c : Cluster) (q : String) (m : Member) :
    ∃ parties, c.setMember q m = { c with parties } := by
  rw [setMember]
  split
  · exact exists_setLeased_eq c q _
  · exact ⟨_, rfl⟩

@[simp] theorem setMember_now (c : Cluster) (q : String) (m : Member) :
    (c.setMember q m).now = c.now := by
  obtain ⟨ps, hps⟩ := exists_setMember_eq c q m
  rw [hps]

@[simp] theorem setMember_stores (c : Cluster) (q : String) (m : Member) :
    (c.setMember q m).stores = c.stores := by
  obtain ⟨ps, hps⟩ := exists_setMember_eq c q m
  rw [hps]

@[simp] theorem setMember_tasks (c : Cluster) (q : String) (m : Member) :
    (c.setMember q m).tasks = c.tasks := by
  obtain ⟨ps, hps⟩ := exists_setMember_eq c q m
  rw [hps]

@[simp] theorem setMember_nextTask (c : Cluster) (q : String) (m : Member) :
    (c.setMember q m).nextTask = c.nextTask := by
  obtain ⟨ps, hps⟩ := exists_setMember_eq c q m
  rw [hps]

theorem leased?_setMember_of_ne {p q : String} (h : p ≠ q) (c : Cluster) (m : Member) :
    (c.setMember q m).leased? p = c.leased? p := by
  rw [setMember]
  split
  · exact leased?_setLeased_of_ne h c _
  · rfl

theorem leased?_setMember_self {c : Cluster} {p : String} {l : Leased} (h : c.leased? p = some l)
    (m : Member) : (c.setMember p m).leased? p = some { l with member := m } := by
  rw [setMember, h]
  exact leased?_setLeased_self h _

/-! ### Tasks -/

theorem task?_setTask (c : Cluster) (id : Nat) (w : Option Work) (id' : Nat) :
    (c.setTask id w).task? id' = if id' = id then w.map (Task.mk id) else c.task? id' := by
  rw [task?, setTask, List.find?_append, List.find?_filter]
  by_cases h : id' = id
  · subst h
    have hnone : c.tasks.find? (fun _ => false) = none := by simp
    rw [if_pos rfl]
    cases w <;> simp [hnone]
  · rw [if_neg h]
    have hrest : (w.map (Task.mk id)).toList.find? (fun t => decide (t.id = id')) = none := by
      cases w <;> simp [Ne.symm h]
    rw [hrest, Option.or_none, task?]
    congr 1
    funext t
    by_cases ht : t.id = id'
    · simp [ht, h]
    · simp [ht]

theorem Tidy.setTask {c : Cluster} (h : c.Tidy) {id : Nat} (hid : id < c.nextTask)
    (w : Option Work) : (c.setTask id w).Tidy := by
  intro t ht
  rcases List.mem_append.1 ht with ht | ht
  · exact h t (List.mem_filter.1 ht).1
  · cases w with
    | none => cases ht
    | some w =>
        obtain rfl := List.mem_singleton.1 ht
        exact hid

theorem task?_spawn {c : Cluster} (h : c.Tidy) (w : Work) (id : Nat) :
    (c.spawn w).1.task? id = if id = c.nextTask then some ⟨c.nextTask, w⟩ else c.task? id := by
  rw [task?, spawn, List.find?_append]
  by_cases hid : id = c.nextTask
  · subst hid
    rw [if_pos rfl, ← task?, h.task?_eq_none (Nat.le_refl _)]
    simp
  · rw [if_neg hid, task?]
    simp [Ne.symm hid]

theorem Tidy.spawn {c : Cluster} (h : c.Tidy) (w : Work) : (c.spawn w).1.Tidy := by
  intro t ht
  rcases List.mem_append.1 ht with ht | ht
  · exact Nat.lt_succ_of_lt (h t ht)
  · obtain rfl := List.mem_singleton.1 ht
    exact Nat.lt_succ_self _

theorem Tidy.of_eq {c c' : Cluster} (h : c.Tidy) (ht : c'.tasks = c.tasks)
    (hn : c'.nextTask = c.nextTask) : c'.Tidy := by
  intro t hm
  rw [hn]
  exact h t (ht ▸ hm)

end Cluster

/-! ### Work for others -/

/-- Whatever a member asks of its store, the store only grows. -/
theorem CallPoint.grows_perform (m : Member) (p : CallPoint) (s : Store) :
    s.Grows (p.perform m s).1 := by
  cases p with
  | grant =>
      rw [perform]
      split
      · next h =>
          obtain ⟨hr, hp⟩ := Store.grant_eq_ok h
          exact .of_eq hp hr
      · exact .refl s
  | publish lease =>
      rw [perform]
      split
      · next h => exact Store.grows_put h
      · exact .refl s
  | withdraw =>
      rw [perform]
      split
      · next h => exact Store.grows_delete h
      · exact .refl s
  | scan => exact .refl s
  | renew lease => exact .refl s
  | retire =>
      rw [perform]
      split
      · next h => exact Store.grows_delete h
      · exact .refl s

namespace Cluster

/-- The clusters differ only in their clients and in what has been noted down. -/
structure Alike (c c' : Cluster) : Prop where
  now : c'.now = c.now
  tasks : c'.tasks = c.tasks
  nextTask : c'.nextTask = c.nextTask
  stores : c'.stores = c.stores
  parties : c'.parties = c.parties

theorem Alike.refl (c : Cluster) : c.Alike c := ⟨rfl, rfl, rfl, rfl, rfl⟩

theorem Alike.trans {c c' c'' : Cluster} (h : c.Alike c') (h' : c'.Alike c'') : c.Alike c'' where
  now := h'.now.trans h.now
  tasks := h'.tasks.trans h.tasks
  nextTask := h'.nextTask.trans h.nextTask
  stores := h'.stores.trans h.stores
  parties := h'.parties.trans h.parties

theorem Alike.store {c c' : Cluster} (h : c.Alike c') (i : Nat) : c'.store i = c.store i := by
  rw [Cluster.store, Cluster.store, h.stores]

theorem Alike.leased? {c c' : Cluster} (h : c.Alike c') (p : String) :
    c'.leased? p = c.leased? p := by
  rw [Cluster.leased?, Cluster.leased?, party?, party?, h.parties]

theorem Alike.task? {c c' : Cluster} (h : c.Alike c') (id : Nat) : c'.task? id = c.task? id := by
  rw [Cluster.task?, Cluster.task?, h.tasks]

theorem alike_foldl {α : Type} {f : Cluster → α → Cluster} (h : ∀ c a, Alike c (f c a))
    (l : List α) (c : Cluster) : c.Alike (l.foldl f c) := by
  induction l generalizing c with
  | nil => exact .refl c
  | cons a l ih => exact (h c a).trans (ih _)

theorem alike_notifyResolvers (c : Cluster) (builder : String) :
    c.Alike (c.notifyResolvers builder) := by
  rw [notifyResolvers]
  split
  · exact .refl c
  · next b _ =>
      refine Alike.trans ?_ (alike_foldl (fun d id => ?_) _ _)
      · exact ⟨rfl, rfl, rfl, rfl, rfl⟩
      · split
        · exact ⟨rfl, rfl, rfl, rfl, rfl⟩
        · exact .refl d

/-- Clients are nobody's concern but their own. -/
theorem alike_refresh (c : Cluster) (who : Follower) : c.Alike (c.refresh who) := by
  cases who with
  | slot id =>
      rw [refresh, rebuildSlot]
      split
      · exact ⟨rfl, rfl, rfl, rfl, rfl⟩
      · exact .refl c
  | builder id => exact alike_notifyResolvers c id
  | pool id =>
      rw [refresh, syncPool]
      split
      · exact ⟨rfl, rfl, rfl, rfl, rfl⟩
      · exact .refl c

/-- The second cluster came out of the first by work that is not for a party: the member of the
party is as it was, and so are all tasks and the time. -/
structure Spares (p : String) (c c' : Cluster) : Prop where
  now : c'.now = c.now
  tasks : c'.tasks = c.tasks
  nextTask : c'.nextTask = c.nextTask
  length : c'.stores.length = c.stores.length
  leased : c'.leased? p = c.leased? p
  grows : ∀ i, (c.store i).Grows (c'.store i)

variable {p q : String}

theorem Spares.refl (p : String) (c : Cluster) : c.Spares p c where
  now := rfl
  tasks := rfl
  nextTask := rfl
  length := rfl
  leased := rfl
  grows _ := .refl _

theorem Spares.trans {c c' c'' : Cluster} (h : c.Spares p c') (h' : c'.Spares p c'') :
    c.Spares p c'' where
  now := h'.now.trans h.now
  tasks := h'.tasks.trans h.tasks
  nextTask := h'.nextTask.trans h.nextTask
  length := h'.length.trans h.length
  leased := h'.leased.trans h.leased
  grows i := (h.grows i).trans (h'.grows i)

theorem Alike.spares {c c' : Cluster} (h : c.Alike c') (p : String) : c.Spares p c' where
  now := h.now
  tasks := h.tasks
  nextTask := h.nextTask
  length := by rw [h.stores]
  leased := h.leased? p
  grows i := by rw [h.store]; exact .refl _

theorem spares_setStore {c : Cluster} {i : Nat} {s : Store} (h : (c.store i).Grows s) :
    c.Spares p (c.setStore i s) where
  now := rfl
  tasks := rfl
  nextTask := rfl
  length := length_stores_setStore c i s
  leased := rfl
  grows := grows_setStore h

theorem spares_setBus (c : Cluster) (q : String) (b : Bus) : c.Spares p (c.setBus q b) where
  now := setBus_now c q b
  tasks := setBus_tasks c q b
  nextTask := setBus_nextTask c q b
  length := by rw [setBus_stores]
  leased := leased?_setBus c q b p
  grows i := by rw [store, store, setBus_stores]; exact .refl _

theorem spares_setMember (h : p ≠ q) (c : Cluster) (m : Member) : c.Spares p (c.setMember q m) where
  now := setMember_now c q m
  tasks := setMember_tasks c q m
  nextTask := setMember_nextTask c q m
  length := by rw [setMember_stores]
  leased := leased?_setMember_of_ne h c m
  grows i := by rw [store, store, setMember_stores]; exact .refl _

theorem spares_stepFlight (h : p ≠ q) {c : Cluster} {f : Flight}
    {r : Cluster × (Wait ⊕ Except Failure Unit)} (hr : c.stepFlight q f = some r) :
    c.Spares p r.1 := by
  rw [stepFlight] at hr
  obtain ⟨l, -, hr⟩ := Option.bind_eq_some_iff.1 hr
  split at hr
  · split at hr
    · obtain rfl := Option.some.inj hr
      exact spares_setStore (CallPoint.grows_perform _ _ _)
    · split at hr
      · obtain rfl := Option.some.inj hr
        exact spares_setMember h c _
      · cases hr
  · split at hr
    · obtain rfl := Option.some.inj hr
      exact spares_setMember h c _
    · split at hr
      · obtain rfl := Option.some.inj hr
        exact spares_setMember h c _
      · cases hr

theorem spares_stepWait (h : p ≠ q) {c : Cluster} {w : Wait}
    {r : Cluster × (Wait ⊕ Except Failure Unit)} (hr : c.stepWait q w = some r) :
    c.Spares p r.1 := by
  cases w with
  | call f => exact spares_stepFlight h hr
  | notice n point =>
      rw [stepWait] at hr
      split at hr
      · split at hr
        · cases hr
        · obtain rfl := Option.some.inj hr
          exact spares_setBus c q _
      · dsimp only at hr
        split at hr
        · obtain rfl := Option.some.inj hr
          exact (spares_setBus c q _).trans (spares_setMember h _ _)
        · obtain rfl := Option.some.inj hr
          exact spares_setBus c q _

/-- A step of a keep-alive loop touches the cluster only by going on with its round, and it leaves
work for its own party. -/
theorem stepKeepAlive_eq_some {c : Cluster} {loop : KeepAliveLoop} {r : Cluster × Option Work}
    (hr : c.stepKeepAlive q loop = some r) :
    (∀ w ∈ r.2, w.party = q) ∧
      (r.1 = c ∨ ∃ w s, loop = .ticking w ∧ c.stepWait q w = some s ∧
        r = (s.1, s.1.afterTickStep q s.2)) := by
  have hafter (d : Cluster) (next : Wait ⊕ Except Failure Unit) :
      ∀ w ∈ d.afterTickStep q next, w.party = q := by
    intro w hw
    cases next <;> (obtain rfl := Option.some.inj hw; rfl)
  cases loop with
  | sleeping t =>
      rw [stepKeepAlive] at hr
      split at hr
      · obtain rfl := Option.some.inj hr
        exact ⟨by rintro w ⟨⟩, .inl rfl⟩
      · split at hr
        · obtain ⟨m, -, hr⟩ := Option.bind_eq_some_iff.1 hr
          obtain rfl := Option.some.inj hr
          exact ⟨hafter c _, .inl rfl⟩
        · cases hr
  | ticking w =>
      obtain ⟨s, hs, hr⟩ := Option.bind_eq_some_iff.1 hr
      obtain rfl := Option.some.inj hr
      exact ⟨hafter s.1 s.2, .inr ⟨w, s, rfl, hs, rfl⟩⟩
  | backingOff t =>
      rw [stepKeepAlive] at hr
      split at hr
      · obtain rfl := Option.some.inj hr
        exact ⟨by rintro w ⟨⟩, .inl rfl⟩
      · split at hr
        · obtain rfl := Option.some.inj hr
          refine ⟨fun w hw => ?_, .inl rfl⟩
          obtain rfl := Option.some.inj hw
          rfl
        · cases hr

theorem spares_stepKeepAlive (h : p ≠ q) {c : Cluster} {loop : KeepAliveLoop}
    {r : Cluster × Option Work} (hr : c.stepKeepAlive q loop = some r) : c.Spares p r.1 := by
  obtain he | ⟨w, s, -, hs, rfl⟩ := (stepKeepAlive_eq_some hr).2
  · rw [he]
    exact .refl p c
  · exact spares_stepWait h hs

theorem spares_watchBroke (h : p ≠ q) (c : Cluster) : c.Spares p (c.watchBroke q).1 := by
  rw [watchBroke]
  split
  · exact spares_setMember h c _
  · exact .refl p c

theorem spares_applyBatch (h : p ≠ q) (c : Cluster) (feed : Feed) (injected : List Injection)
    (events : List Event) : c.Spares p (c.applyBatch q feed injected events).1 := by
  rw [applyBatch]
  split
  · next m _ =>
      have hset := spares_setMember h c (m.applyEvents events).1
      split
      · next hw => exact (Prod.mk.inj hw).1 ▸ hset
      · next hw => exact (Prod.mk.inj hw).1 ▸ hset
  · exact .refl p c

/-- A step of a watch loop touches nothing, or its watch breaks, or a batch is handed over, or
the notice being given goes on. -/
theorem stepWatch_eq_some {c : Cluster} {loop : WatchLoop} {r : Cluster × Option Work}
    (hr : c.stepWatch q loop = some r) :
    (r.1 = c ∧ ∀ w ∈ r.2, w.party = q) ∨ r = c.watchBroke q ∨
      (∃ feed injected read rest events, loop = .streaming feed injected ∧
        r = c.applyBatch q read rest events) ∨
      ∃ feed injected w s, loop = .applying feed injected w ∧ c.stepWait q w = some s ∧
        r = (s.1, some (.watch q (s.2.elim (.applying feed injected)
          fun _ => .streaming feed injected))) := by
  have hends (he : some (c, none) = some r) : r.1 = c ∧ ∀ w ∈ r.2, w.party = q := by
    obtain rfl := Option.some.inj he
    exact ⟨rfl, by rintro w ⟨⟩⟩
  have hgoesOn {loop' : WatchLoop} (he : some (c, some (Work.watch q loop')) = some r) :
      r.1 = c ∧ ∀ w ∈ r.2, w.party = q := by
    obtain rfl := Option.some.inj he
    refine ⟨rfl, fun w hw => ?_⟩
    obtain rfl := Option.some.inj hw
    rfl
  cases loop with
  | subscribing actsAt answersAt reply =>
      obtain ⟨l, -, hr⟩ := Option.bind_eq_some_iff.1 hr
      split at hr
      · exact .inl (hends hr)
      · split at hr
        · split at hr
          · exact .inl (hgoesOn hr)
          · cases hr
        · split at hr
          · split at hr
            · exact .inl (hgoesOn hr)
            · exact .inr (.inl (Option.some.inj hr).symm)
          · cases hr
  | streaming feed injected =>
      obtain ⟨l, -, hr⟩ := Option.bind_eq_some_iff.1 hr
      split at hr
      · exact .inl (hends hr)
      · split at hr
        · exact .inr (.inr (.inl ⟨feed, injected, _, _, _, rfl, (Option.some.inj hr).symm⟩))
        · exact .inr (.inl (Option.some.inj hr).symm)
        · split at hr
          · split at hr
            · cases hr
            · exact .inl (hgoesOn hr)
          · exact .inr (.inr (.inl ⟨feed, _, _, _, _, rfl, (Option.some.inj hr).symm⟩))
          · exact .inr (.inl (Option.some.inj hr).symm)
  | applying feed injected w =>
      obtain ⟨s, hs, hr⟩ := Option.bind_eq_some_iff.1 hr
      split at hr
      · exact .inr (.inr (.inr ⟨feed, injected, w, _, rfl, hs, (Option.some.inj hr).symm⟩))
      · exact .inr (.inr (.inr ⟨feed, injected, w, _, rfl, hs, (Option.some.inj hr).symm⟩))
  | backingOff t =>
      rw [stepWatch] at hr
      split at hr
      · exact .inl (hends hr)
      · split at hr
        · exact .inl (hgoesOn hr)
        · cases hr

theorem spares_stepWatch (h : p ≠ q) {c : Cluster} {loop : WatchLoop}
    {r : Cluster × Option Work} (hr : c.stepWatch q loop = some r) : c.Spares p r.1 := by
  obtain ⟨he, -⟩ | rfl | ⟨_, _, read, rest, events, -, rfl⟩ | ⟨_, _, w, s, -, hs, rfl⟩ :=
    stepWatch_eq_some hr
  · rw [he]
    exact .refl p c
  · exact spares_watchBroke h c
  · exact spares_applyBatch h c read rest events
  · exact spares_stepWait h hs

/-- Following a bus concerns no member, not even that of the party itself. -/
theorem spares_stepFollow {c : Cluster} {sink : Nat} {who : Follower} {r : Cluster × Option Work}
    (hr : c.stepFollow q sink who = some r) : c.Spares p r.1 := by
  rw [stepFollow] at hr
  split at hr
  · obtain rfl := Option.some.inj hr
    exact .refl p c
  · split at hr
    · obtain rfl := Option.some.inj hr
      exact (spares_setBus c q _).trans ((alike_refresh _ who).spares p)
    · cases hr

end Cluster

end ServiceMesh
