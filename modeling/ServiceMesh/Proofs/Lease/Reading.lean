import ServiceMesh.Proofs.Store.Feed
import ServiceMesh.Proofs.Store.Scan

/-!
Readings. A snapshot is made of two things: the records that a round of upkeep read, and the events
that the watch loop applied to them. What it lacks in the end depends on these two only: a change
that was made after the records were read, and whose event was over before they were taken up, is
missed until the key changes again.
-/

namespace ServiceMesh

def Store.between (s : Store) (i j : Nat) : List Event := (s.published.toList.drop i).take (j - i)

/-- What was read last. -/
structure Reading where
  records : List (String × List UInt8)
  /-- The events from this number on are applied to it, once there is a stream that brings them. -/
  since : Option Nat

namespace Store

variable {s s' : Store} {i j k : Nat}

@[simp] theorem between_self (s : Store) (i : Nat) : s.between i i = [] := by simp [between]

theorem between_append (hij : i ≤ j) (hjk : j ≤ k) :
    s.between i k = s.between i j ++ s.between j k := by
  have hk : k - i = (j - i) + (k - j) := by omega
  have hj : i + (j - i) = j := by omega
  rw [between, between, between, hk, List.take_add, List.drop_drop, hj]

theorem between_size (s : Store) (i : Nat) :
    s.between i s.published.size = s.published.toList.drop i :=
  List.take_of_length_le (by simp)

theorem Grows.between (h : s.Grows s') (hj : j ≤ s.published.size) :
    s'.between i j = s.between i j := by
  obtain ⟨es, hp, -⟩ := h
  rw [Store.between, Store.between, hp]
  by_cases hi : i ≤ s.published.size
  · rw [List.drop_append_of_le_length (by simpa using hi)]
    exact List.take_append_of_le_length (by simp; omega)
  · have hz : j - i = 0 := by omega
    rw [hz, List.take_zero, List.take_zero]

end Store

namespace Feed

variable {f g : Feed} {s : Store}

/-- What lies between a feed and the feed after it is what was passed over and what came out. -/
theorem between_of_next_ok {e : Event} (h : f.next s = (g, some (.ok e))) :
    ∃ skipped, s.between f.position g.position = skipped ++ [e] ∧
      ∀ e' ∈ skipped, f.wants e' = false := by
  obtain ⟨-, -, skipped, ha, hun, hpos⟩ := next_ok h
  refine ⟨skipped, ?_, hun⟩
  have hlen : g.position - f.position = skipped.length + 1 := by omega
  rw [Store.between, hlen, ← ahead, ha, List.take_append, List.take_of_length_le (by omega)]
  simp

theorem between_of_next_none (hle : f.position ≤ s.published.size) (h : f.next s = (g, none)) :
    ∀ e ∈ s.between f.position g.position, f.wants e = false := by
  obtain ⟨-, hun⟩ := next_none hle h
  exact fun e he => hun e (List.mem_of_mem_take he)

end Feed

namespace Topology

/-- Events that a watcher of nodes does not want change nothing. -/
theorem apply_of_wants_eq_false {f : Feed} (hf : f.start = servicePrefix) {e : Event}
    (he : f.wants e = false) (t : Topology) : t.apply e = (t, false) := by
  refine apply_of_parseKey_eq_none ?_ t
  cases hk : Node.parseKey e.key with
  | none => rfl
  | some p =>
      have hw := Node.isPrefixOf_of_parseKey hk
      rw [Feed.wants, hf, hw] at he
      cases he

theorem replay_of_wants_eq_false {f : Feed} (hf : f.start = servicePrefix) {es : List Event}
    (hes : ∀ e ∈ es, f.wants e = false) (t : Topology) : t.replay es = t := by
  induction es with
  | nil => rfl
  | cons e es ih =>
      rw [replay_cons, apply_of_wants_eq_false hf (hes e List.mem_cons_self)]
      exact ih fun e' he' => hes e' (List.mem_cons_of_mem _ he')

end Topology

namespace Reading

variable {r : Reading} {s s' : Store} {pos : Option Nat}

def topology (r : Reading) (s : Store) (pos : Option Nat) : Topology :=
  (Topology.ofScan r.records).replay (s.between (r.since.getD 0) (pos.getD 0))

/-- Events are applied to the reading exactly as long as a stream is followed. -/
def Fits (r : Reading) : Option Nat → Prop
  | none => r.since = none
  | some j => ∃ i, r.since = some i ∧ i ≤ j

def follow (r : Reading) (pos : Option Nat) : Reading := { r with since := r.since.or pos }

/-- What was read last after an act, from what was read last before. If the stream breaks, whatever
was read is out of date. -/
def observe (R : Option Reading) (before after : Option Nat)
    (taken : Option (List (String × List UInt8))) : Option Reading :=
  match taken with
  | some records => some ⟨records, after⟩
  | none => if before.isSome ∧ after.isNone then none else R.map (·.follow after)

/-- The node that was read under each key is that of the store, or the key has had an event since
the records were taken up. -/
def UpToDate (r : Reading) (s : Store) : Prop :=
  ∀ key, (∃ e ∈ s.published.toList.drop (r.since.getD 0), e.key = key) ∨
    Topology.nodeOf key (Entries.lookup key r.records) = Topology.nodeOf key (s.get? key)

theorem observe_ne_none {R : Option Reading} (hR : R ≠ none) {before after : Option Nat}
    (hafter : after ≠ none) (taken : Option (List (String × List UInt8))) :
    observe R before after taken ≠ none := by
  cases taken with
  | some records => exact Option.some_ne_none _
  | none =>
      rw [observe, if_neg (by simp [hafter])]
      simpa using hR

theorem Fits.follow (h : r.Fits pos) : r.follow pos = r := by
  cases pos with
  | none => rw [Reading.follow, Option.or_none]
  | some j =>
      obtain ⟨i, hi, -⟩ := h
      rw [Reading.follow, hi]
      obtain ⟨records, since⟩ := r
      obtain rfl := hi
      rfl

/-- A stream begins where the log ends, and a reading begins with nothing applied to it. -/
theorem Fits.begin (h : r.Fits none) (j : Nat) :
    (r.follow (some j)).Fits (some j) ∧
      (r.follow (some j)).topology s (some j) = r.topology s none := by
  have hs : (r.follow (some j)).since = some j := by
    rw [Reading.follow, show r.since = none from h]
    rfl
  refine ⟨⟨j, hs, Nat.le_refl j⟩, ?_⟩
  rw [topology, topology, hs, show r.since = none from h]
  simp [Reading.follow]

theorem fits_new (records : List (String × List UInt8)) (pos : Option Nat) :
    (⟨records, pos⟩ : Reading).Fits pos := by
  cases pos with
  | none => rfl
  | some j => exact ⟨j, rfl, Nat.le_refl j⟩

theorem topology_new (records : List (String × List UInt8)) (s : Store) (pos : Option Nat) :
    (⟨records, pos⟩ : Reading).topology s pos = Topology.ofScan records := by
  rw [topology, Store.between_self]
  rfl

theorem topology_of_grows (h : s.Grows s') (hpos : ∀ j ∈ pos, j ≤ s.published.size) :
    r.topology s' pos = r.topology s pos := by
  rw [topology, topology, h.between]
  cases pos with
  | none => exact Nat.zero_le _
  | some j => exact hpos j rfl

/-- Further events of the log make the topology go on. -/
theorem Fits.advance {j k : Nat} (h : r.Fits (some j)) (hjk : j ≤ k) :
    r.Fits (some k) ∧ r.topology s (some k) = (r.topology s (some j)).replay (s.between j k) := by
  obtain ⟨i, hi, hij⟩ := h
  refine ⟨⟨i, hi, Nat.le_trans hij hjk⟩, ?_⟩
  rw [topology, topology, hi]
  change (Topology.ofScan r.records).replay (s.between i k) =
    ((Topology.ofScan r.records).replay (s.between i j)).replay (s.between j k)
  rw [Store.between_append hij hjk, Topology.replay_append]

/-- With all events applied, a reading agrees with the store exactly when it is up to date. -/
theorem sameMembers_iff_upToDate (hl : s.Logged) (hes : ∀ e ∈ s.published.toList, e.WellFormed)
    (hr : Topology.WellFormedScan r.records) :
    (r.topology s (some s.published.size)).sameMembers (Topology.ofScan s.nodes) = true ↔
      r.UpToDate s := by
  have hscan := Topology.wellFormedScan_nodes hl hes
  have hdrop : ∀ e ∈ s.published.toList.drop (r.since.getD 0), e.WellFormed := fun e he =>
    hes e (List.mem_of_mem_drop he)
  rw [topology, Option.getD_some, Store.between_size]
  rw [Topology.sameMembers_iff_nodeAt? ((Topology.Proper.ofScan _).replay _)
    ((Topology.Placed.ofScan hr).replay hdrop) (Topology.Proper.ofScan _)
    (Topology.Placed.ofScan hscan)]
  refine forall_congr' fun key => ?_
  rw [Topology.nodeAt?_ofScan_nodes hscan]
  by_cases hex : ∃ e ∈ s.published.toList.drop (r.since.getD 0), e.key = key
  · -- the last event of the key, which the replay has, tells what the store has
    have hnode := Topology.nodeAt?_replay (t := Topology.ofScan r.records)
      (v := Event.record key none (s.published.toList.take (r.since.getD 0))) hdrop (.inr hex)
    rw [← Event.record_append, List.take_append_drop, ← hl] at hnode
    exact ⟨fun _ => .inl hex, fun _ => hnode⟩
  · -- the replay leaves the key alone, and what was read under it is all there is
    rw [Topology.nodeAt?_replay_of_forall_ne hdrop fun e he hk => hex ⟨e, he, hk⟩,
      Topology.nodeAt?_ofScan hr]
    exact ⟨.inr, fun h => h.resolve_left hex⟩

end Reading

end ServiceMesh
