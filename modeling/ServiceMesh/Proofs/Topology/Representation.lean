import ServiceMesh.Proofs.Topology.Replay

/-!
What every topology is like. However it came about, by a scan of any records and by any events after
it, each of its services stands under its own name and has nodes, none of them twice. An event
concerns no service but the one in its key, and it changes nothing unless it says so.
-/

namespace ServiceMesh

def Event.service? (e : Event) : Option String := (Node.parseKey e.key).map (·.1)

namespace Topology

/-- The property holds of whatever a scan finds, and events keep it. -/
structure IsKept (P : Topology → Prop) : Prop where
  ofScan : ∀ records, P (ofScan records)
  apply : ∀ {t}, P t → ∀ e, P (t.apply e).1

/-- Some scan and some events after it lead to the topology, whatever their keys and values are. -/
inductive Reachable : Topology → Prop where
  | ofScan (records : List (String × List UInt8)) : Reachable (ofScan records)
  | apply {t : Topology} (h : Reachable t) (e : Event) : Reachable (t.apply e).1

def Named (t : Topology) : Prop := ∀ name s, t.get? name = some s → s.name = name ∧ name ≠ ""

/-- Every service stands under its own name and has nodes with distinct identifiers, and the names
of all services are listed in increasing order. -/
structure Sound (t : Topology) : Prop where
  named : t.Named
  nodes_ne_nil : ∀ {name s}, t.get? name = some s → s.nodes ≠ []
  nodup : ∀ {name s}, t.get? name = some s → (s.nodes.map (·.id)).Nodup
  sorted : t.names.Pairwise (· < ·)
  mem_names_iff : ∀ {name}, name ∈ t.names ↔ ∃ s, t.get? name = some s

variable {P : Topology → Prop} {t : Topology} {e : Event}

/-! ### Properties that are kept -/

/-- A scan is a run of events on nothing. -/
theorem isKept_of_empty (hempty : P empty) (happly : ∀ {t}, P t → ∀ e, P (t.apply e).1) :
    IsKept P where
  ofScan records := by
    have hreplay (es : List Event) : ∀ t, P t → P (t.replay es) := by
      induction es with
      | nil => exact fun t ht => ht
      | cons e es ih => exact fun t ht => ih _ (happly ht e)
    rw [ofScan_eq_replay]
    exact hreplay _ empty hempty
  apply := happly

theorem IsKept.of_reachable (hP : IsKept P) (h : t.Reachable) : P t := by
  induction h with
  | ofScan records => exact hP.ofScan records
  | apply _ e ih => exact hP.apply ih e

theorem isKept_proper : IsKept Proper := ⟨.ofScan, .apply⟩

theorem isKept_reachable : IsKept Reachable := ⟨.ofScan, .apply⟩

/-! ### Names -/

theorem Named.empty : Named empty := by
  intro name s h
  cases h

theorem Named.upsert (h : t.Named) {service : String} (hs : service ≠ "") (n : Node) :
    (t.upsert service n).Named := by
  intro name s hget
  rw [get?_upsert] at hget
  split at hget
  · next hname =>
      obtain rfl := Option.some.inj hget
      subst hname
      exact ⟨rfl, hs⟩
  · exact h name s hget

theorem Named.remove (h : t.Named) (service id : String) : (t.remove service id).Named := by
  intro name s hget
  rw [get?_remove] at hget
  split at hget
  · next hname =>
      -- what is left of the service keeps its name
      obtain ⟨s', hs', hget⟩ := Option.bind_eq_some_iff.1 hget
      split at hget
      · cases hget
      · obtain rfl := Option.some.inj hget
        subst hname
        exact h name s' hs'
  · exact h name s hget

theorem Named.apply (h : t.Named) (e : Event) : (t.apply e).1.Named := by
  cases e with
  | put key value =>
      rw [Topology.apply, applyPut]
      split
      · next hkey _ =>
          have hs := (Node.parseKey_eq_some_iff.1 hkey).1
          exact h.upsert hs _
      · exact h
  | delete key =>
      rw [Topology.apply, applyDelete]
      split
      · exact h.remove _ _
      · exact h

theorem isKept_named : IsKept Named := isKept_of_empty .empty .apply

/-! ### Services that an event does not name -/

theorem get?_upsert_of_ne {service name : String} (h : service ≠ name) (n : Node) :
    (t.upsert service n).get? name = t.get? name := by
  rw [get?_upsert, if_neg (Ne.symm h)]

theorem get?_remove_of_ne {service name : String} (h : service ≠ name) (id : String) :
    (t.remove service id).get? name = t.get? name := by
  rw [get?_remove, if_neg (Ne.symm h)]

/-- An event leaves all services alone but the one in its key. -/
theorem get?_apply_of_ne {name : String} (h : e.service? ≠ some name) :
    (t.apply e).1.get? name = t.get? name := by
  cases hk : Node.parseKey e.key with
  | none => rw [apply_of_parseKey_eq_none hk]
  | some p =>
      have hne : p.1 ≠ name := by
        intro he
        apply h
        rw [Event.service?, hk, ← he]
        rfl
      cases e with
      | put key value =>
          have hk : Node.parseKey key = some p := hk
          rw [Topology.apply, applyPut, hk]
          cases Node.decode? value with
          | none => rfl
          | some n => exact get?_upsert_of_ne hne n
      | delete key =>
          have hk : Node.parseKey key = some p := hk
          rw [Topology.apply, applyDelete, hk]
          exact get?_remove_of_ne hne p.2

/-! ### Reachable topologies -/

theorem Sound.of_proper (hp : t.Proper) (hn : t.Named) : t.Sound where
  named := hn
  nodes_ne_nil := hp.nodes_ne_nil
  nodup {name s} h := by
    have hnodup := hp.nodup name
    rwa [nodes, h] at hnodup
  sorted := t.services.keys_sorted
  mem_names_iff {name} := by
    rw [names, KeyMap.mem_keys_iff, Option.isSome_iff_exists]
    rfl

theorem Reachable.proper (h : t.Reachable) : t.Proper := isKept_proper.of_reachable h

theorem Reachable.sound (h : t.Reachable) : t.Sound :=
  .of_proper h.proper (isKept_named.of_reachable h)

end Topology

end ServiceMesh
