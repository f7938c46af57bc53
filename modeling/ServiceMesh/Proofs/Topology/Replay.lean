import ServiceMesh.Proofs.Node.Key
import ServiceMesh.Proofs.Store.Log
import ServiceMesh.Proofs.Topology.Members

/-!
Scans and events agree. Under each key a topology has the node of what was last written there,
whether it learned so from a scan or from an event. Hence a scan followed by the events of a log,
some of which the scan had seen already, leads to the topology of a scan of the end.
-/

namespace ServiceMesh

/-- What is written under the key of a node is a node with the identifier in the key. Other keys,
and deletions, are free. -/
def Event.WellFormed : Event → Prop
  | .put key value => ∀ service id, Node.parseKey key = some (service, id) →
      ∃ n, Node.decode? value = some n ∧ n.id = id
  | .delete _ => True

theorem Event.wellFormed_put_iff {key : String} {value : List UInt8} :
    (Event.put key value).WellFormed ↔
      ∀ p ∈ Node.parseKey key, ∃ n ∈ Node.decode? value, n.id = p.2 :=
  ⟨fun h p hp => h p.1 p.2 hp, fun h service id hk => h (service, id) hk⟩

instance (e : Event) : Decidable e.WellFormed :=
  match e with
  | .put _ _ => decidable_of_iff _ Event.wellFormed_put_iff.symm
  | .delete _ => isTrue trivial

namespace Topology

def replay (t : Topology) (es : List Event) : Topology := es.foldl (fun t e => (t.apply e).1) t

def nodeOf (key : String) (v : Option (List UInt8)) : Option Node :=
  (Node.parseKey key).bind fun _ => v.bind Node.decode?

def nodeAt? (t : Topology) (key : String) : Option Node :=
  (Node.parseKey key).bind fun p => t.node? p.1 p.2

/-- Every node stands where its key would put it. -/
def Placed (t : Topology) : Prop :=
  ∀ service id n, t.node? service id = some n →
    Node.parseKey (Node.key service id) = some (service, id)

@[simp] theorem replay_nil (t : Topology) : t.replay [] = t := rfl

@[simp] theorem replay_cons (t : Topology) (e : Event) (es : List Event) :
    t.replay (e :: es) = (t.apply e).1.replay es := rfl

theorem replay_append (t : Topology) (es es' : List Event) :
    t.replay (es ++ es') = (t.replay es).replay es' :=
  List.foldl_append

theorem ofScan_eq_replay (records : List (String × List UInt8)) :
    ofScan records = empty.replay (records.map fun r => .put r.1 r.2) := by
  rw [replay, List.foldl_map]
  rfl

theorem nodeOf_none (key : String) : nodeOf key none = none := by
  cases h : Node.parseKey key <;> simp [nodeOf, h]

theorem nodeAt?_empty (key : String) : empty.nodeAt? key = none := by
  cases h : Node.parseKey key <;> simp [nodeAt?, h]

/-! ### One event -/

/-- An event of a key that is not of a node changes nothing. -/
theorem apply_of_parseKey_eq_none {e : Event} (h : Node.parseKey e.key = none) (t : Topology) :
    t.apply e = (t, false) := by
  cases e with
  | put key value =>
      have h : Node.parseKey key = none := h
      simp [apply, applyPut, h]
  | delete key =>
      have h : Node.parseKey key = none := h
      simp [apply, applyDelete, h]

/-- A well-formed event puts the node of what was written under its key, and nothing anywhere
else. -/
theorem node?_apply {e : Event} (he : e.WellFormed) {service id : String}
    (hk : Node.parseKey e.key = some (service, id)) (t : Topology) (name id' : String) :
    (t.apply e).1.node? name id' =
      if name = service ∧ id' = id then nodeOf e.key e.value? else t.node? name id' := by
  cases e with
  | put key value =>
      have hk : Node.parseKey key = some (service, id) := hk
      obtain ⟨n, hn, rfl⟩ := he service id hk
      simp [apply, applyPut, hk, hn, node?_upsert, nodeOf, Event.key, Event.value?, eq_comm]
  | delete key =>
      have hk : Node.parseKey key = some (service, id) := hk
      simp [apply, applyDelete, hk, node?_remove, nodeOf, Event.key, Event.value?]

theorem nodeAt?_apply {e : Event} (he : e.WellFormed) (t : Topology) (key : String) :
    (t.apply e).1.nodeAt? key = if e.key = key then nodeOf key e.value? else t.nodeAt? key := by
  cases hk : Node.parseKey key with
  | none =>
      rw [nodeAt?, hk, nodeAt?, hk, nodeOf, hk]
      simp
  | some p =>
      obtain ⟨name, id'⟩ := p
      cases he' : Node.parseKey e.key with
      | none =>
          have hne : e.key ≠ key := by
            rintro rfl
            simp [he'] at hk
          rw [apply_of_parseKey_eq_none he', if_neg hne]
      | some q =>
          obtain ⟨service, id⟩ := q
          rw [nodeAt?, hk, Option.bind_some, node?_apply he he', nodeAt?, hk, Option.bind_some]
          by_cases h : e.key = key
          · subst h
            obtain ⟨rfl, rfl⟩ := Prod.mk.inj (Option.some.inj (hk.symm.trans he'))
            rw [if_pos ⟨rfl, rfl⟩, if_pos rfl]
          · have hne : ¬(name = service ∧ id' = id) := fun hs =>
              h (Node.parseKey_injective he' (hs.1 ▸ hs.2 ▸ hk))
            rw [if_neg hne, if_neg h]

theorem Placed.empty : Placed empty := fun _ _ _ h => by cases h

theorem Placed.apply {t : Topology} (h : t.Placed) {e : Event} (he : e.WellFormed) :
    (t.apply e).1.Placed := by
  cases hk : Node.parseKey e.key with
  | none =>
      rw [apply_of_parseKey_eq_none hk]
      exact h
  | some p =>
      obtain ⟨service, id⟩ := p
      intro name id' n hn
      rw [node?_apply he hk] at hn
      split at hn
      · next hs =>
          obtain ⟨hs1, hid, hslash, -⟩ := Node.parseKey_eq_some_iff.1 hk
          exact Node.parseKey_eq_some_iff.2 ⟨hs.1 ▸ hs1, hs.2 ▸ hid, hs.2 ▸ hslash, rfl⟩
      · exact h name id' n hn

/-! ### Many events -/

theorem Proper.replay {t : Topology} (h : t.Proper) (es : List Event) : (t.replay es).Proper := by
  induction es generalizing t with
  | nil => exact h
  | cons e es ih => exact ih (h.apply e)

theorem Placed.replay {t : Topology} (h : t.Placed) {es : List Event}
    (hes : ∀ e ∈ es, e.WellFormed) : (t.replay es).Placed := by
  induction es generalizing t with
  | nil => exact h
  | cons e es ih =>
      exact ih (h.apply (hes e List.mem_cons_self)) fun e' he' =>
        hes e' (List.mem_cons_of_mem _ he')

/-- After the events of a log a topology has the node of what they leave under a key, if it had
that of what was there before or if there is an event of the key. -/
theorem nodeAt?_replay {t : Topology} {es : List Event} (hes : ∀ e ∈ es, e.WellFormed)
    {key : String} {v : Option (List UInt8)}
    (h : t.nodeAt? key = nodeOf key v ∨ ∃ e ∈ es, e.key = key) :
    (t.replay es).nodeAt? key = nodeOf key (Event.record key v es) := by
  induction es generalizing t v with
  | nil =>
      rcases h with h | ⟨e, he, -⟩
      · exact h
      · cases he
  | cons e es ih =>
      have he := hes e List.mem_cons_self
      have hes' : ∀ e ∈ es, e.WellFormed := fun e' he' => hes e' (List.mem_cons_of_mem _ he')
      rw [replay_cons, Event.record_cons]
      apply ih hes'
      rw [nodeAt?_apply he]
      -- an event of the key settles what is under it, whatever was there
      by_cases hk : e.key = key
      · rw [if_pos hk, if_pos hk]
        exact .inl rfl
      · rw [if_neg hk, if_neg hk]
        rcases h with h | ⟨e', he', hk'⟩
        · exact .inl h
        · rcases List.mem_cons.1 he' with rfl | he'
          · exact absurd hk' hk
          · exact .inr ⟨e', he', hk'⟩

theorem nodeAt?_replay_of_forall_ne {t : Topology} {es : List Event}
    (hes : ∀ e ∈ es, e.WellFormed) {key : String} (h : ∀ e ∈ es, e.key ≠ key) :
    (t.replay es).nodeAt? key = t.nodeAt? key := by
  induction es generalizing t with
  | nil => rfl
  | cons e es ih =>
      rw [replay_cons, ih (fun e' he' => hes e' (List.mem_cons_of_mem _ he'))
        fun e' he' => h e' (List.mem_cons_of_mem _ he')]
      rw [nodeAt?_apply (hes e List.mem_cons_self), if_neg (h e List.mem_cons_self)]

/-- Topologies of well-formed events have the same members exactly when they have the same node
under every key. -/
theorem sameMembers_iff_nodeAt? {t u : Topology} (ht : t.Proper) (ht' : t.Placed) (hu : u.Proper)
    (hu' : u.Placed) : t.sameMembers u = true ↔ ∀ key, t.nodeAt? key = u.nodeAt? key := by
  rw [ht.sameMembers_iff hu]
  constructor
  · intro h key
    rw [nodeAt?, nodeAt?]
    congr 1
    funext p
    exact h p.1 p.2
  · intro h service id
    by_cases hk : Node.parseKey (Node.key service id) = some (service, id)
    · simpa [nodeAt?, hk] using h (Node.key service id)
    · -- a node that its key would not find cannot be there
      have hnone {v : Topology} (hv : v.Placed) : v.node? service id = none := by
        cases hn : v.node? service id with
        | none => rfl
        | some n => exact absurd (hv service id n hn) hk
      rw [hnone ht', hnone hu']

/-! ### Scans -/

/-- The stored pairs are nodes, each under its key. -/
def WellFormedScan (records : List (String × List UInt8)) : Prop :=
  (records.map (·.1)).Nodup ∧ ∀ r ∈ records, (Event.put r.1 r.2).WellFormed

theorem record_map_put {records : List (String × List UInt8)} (h : (records.map (·.1)).Nodup)
    (key : String) (v : Option (List UInt8)) :
    Event.record key v (records.map fun r => .put r.1 r.2) =
      (Entries.lookup key records).or v := by
  induction records generalizing v with
  | nil => rfl
  | cons r records ih =>
      rw [List.map_cons, List.nodup_cons] at h
      rw [List.map_cons, Event.record_cons, ih h.2]
      by_cases hk : r.1 = key
      · have hnone : Entries.lookup key records = none := by
          cases hl : Entries.lookup key records with
          | none => rfl
          | some w =>
              exact absurd (List.mem_map.2 ⟨_, Entries.mem_of_lookup hl, rfl⟩) (hk ▸ h.1)
        simp [Event.key, Event.value?, Entries.lookup, hk, hnone]
      · simp [Event.key, Entries.lookup, hk]

/-- The topology of a scan has the node of what the scan found under each key. -/
theorem nodeAt?_ofScan {records : List (String × List UInt8)} (h : WellFormedScan records)
    (key : String) : (ofScan records).nodeAt? key = nodeOf key (Entries.lookup key records) := by
  have hes : ∀ e ∈ records.map fun r => Event.put r.1 r.2, e.WellFormed := by
    intro e he
    obtain ⟨r, hr, rfl⟩ := List.mem_map.1 he
    exact h.2 r hr
  rw [ofScan_eq_replay, nodeAt?_replay (v := none) hes (.inl _), record_map_put h.1, Option.or_none]
  rw [nodeAt?_empty, nodeOf_none]

theorem Placed.ofScan {records : List (String × List UInt8)} (h : WellFormedScan records) :
    (ofScan records).Placed := by
  rw [ofScan_eq_replay]
  refine Placed.empty.replay fun e he => ?_
  obtain ⟨r, hr, rfl⟩ := List.mem_map.1 he
  exact h.2 r hr

/-- What well-formed events leave in a store is well-formed. -/
theorem wellFormedScan_records {history : List Event} (h : ∀ e ∈ history, e.WellFormed) :
    WellFormedScan (Event.records history).entries := by
  constructor
  · exact (Event.records history).keys_sorted.imp fun hab => String.ne_of_lt hab
  · intro r hr
    have hget := (Event.records history).mem_entries_iff.1 (show (r.1, r.2) ∈ _ from hr)
    rw [Event.get?_records] at hget
    rcases Event.mem_of_record_eq_some hget with hv | hm
    · cases hv
    · exact h _ hm

/-- A scan of what the first `k` events of a history left, followed by all events from the `i`-th
on, has the same members as a scan of what the whole history left; the events between `i` and `k`
are in the scan already and are applied to it once more. -/
theorem replay_overlap_sameMembers {history : List Event} (h : ∀ e ∈ history, e.WellFormed)
    {i k : Nat} (hik : i ≤ k) :
    ((ofScan (Event.records (history.take k)).entries).replay (history.drop i)).sameMembers
      (ofScan (Event.records history).entries) = true := by
  have hscan : WellFormedScan (Event.records (history.take k)).entries :=
    wellFormedScan_records fun e he => h e (List.mem_of_mem_take he)
  have hscan' := wellFormedScan_records h
  have hdrop : ∀ e ∈ history.drop i, e.WellFormed := fun e he => h e (List.mem_of_mem_drop he)
  rw [sameMembers_iff_nodeAt? ((Proper.ofScan _).replay _) ((Placed.ofScan hscan).replay hdrop)
    (Proper.ofScan _) (Placed.ofScan hscan')]
  intro key
  have lookup_records (es : List Event) :
      Entries.lookup key (Event.records es).entries = Event.record key none es :=
    Event.get?_records es key
  -- either the key has an event in the replay, or the scan saw what was there before it
  have hstart : (ofScan (Event.records (history.take k)).entries).nodeAt? key =
        nodeOf key (Event.record key none (history.take i)) ∨
      ∃ e ∈ history.drop i, e.key = key := by
    by_cases hex : ∃ e ∈ history.drop i, e.key = key
    · exact .inr hex
    · left
      have htake : history.take k = history.take i ++ (history.drop i).take (k - i) := by
        rw [← List.take_add, Nat.add_sub_cancel' hik]
      have hne : ∀ e ∈ (history.drop i).take (k - i), e.key ≠ key := fun e he hk =>
        hex ⟨e, List.mem_of_mem_take he, hk⟩
      rw [nodeAt?_ofScan hscan, lookup_records, htake, Event.record_append,
        Event.record_of_forall_ne hne]
  rw [nodeAt?_replay hdrop hstart, ← Event.record_append, List.take_append_drop,
    nodeAt?_ofScan hscan', lookup_records]

/-- A node comes, goes and comes back; the replay begins with events that the scan has seen, and
brings the node back for a while that was gone already. -/
theorem replay_overlap_sameMembers_returning :
    let n := Node.new "svc" "10.0.0.1" 9000
    let m := Node.new "svc" "10.0.0.2" 9000
    let history : List Event := [.put n.path n.encode, .delete n.path, .put m.path m.encode]
    (∀ e ∈ history, e.WellFormed) ∧ 0 ≤ 2 ∧
      ((ofScan (Event.records (history.take 2)).entries).replay (history.drop 0)).sameMembers
        (ofScan (Event.records history).entries) = true := by
  intro n m history
  have hwf : ∀ e ∈ history, e.WellFormed := by decide +kernel
  exact ⟨hwf, Nat.zero_le 2, replay_overlap_sameMembers hwf (Nat.zero_le 2)⟩

end Topology

end ServiceMesh
