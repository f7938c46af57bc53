import ServiceMesh.Proofs.Topology.Replay

/-!
When events and a scan agree, whatever the records are. A node of a topology is the last that was
said of its place, and a record speaks of the identifier in its value, not of the one in its key. A
scan hears what the records that are left say, in the order of their keys; events are heard in the
order in which they happen, and a record that is overwritten by something else than a node has
spoken for good.
-/

namespace ServiceMesh

namespace Event

/-- What an event says of a node: that it is there, or that there is none. Most events say nothing
of it. -/
def says? (service id : String) : Event → Option (Option Node)
  | .put key value =>
    match Node.parseKey key, Node.decode? value with
    | some (name, _), some n => if service = name ∧ n.id = id then some (some n) else none
    | _, _ => none
  | .delete key => if Node.parseKey key = some (service, id) then some none else none

/-- The last that is said of a node. A node that nothing is said of is not there. -/
def lastSaid (service id : String) (es : List Event) : Option Node :=
  ((es.filterMap (says? service id)).getLast?).getD none

/-- The events by which a scan tells of the records that a history leaves behind, in the order of
their keys. -/
def rescan (history : List Event) : List Event :=
  (records history).entries.map fun r => .put r.1 r.2

end Event

namespace Topology

theorem node?_apply_says? (t : Topology) (e : Event) (service id : String) :
    (t.apply e).1.node? service id = (e.says? service id).getD (t.node? service id) := by
  cases e with
  | put key value =>
      rw [apply, applyPut, Event.says?]
      cases Node.parseKey key with
      | none => rfl
      | some p =>
          cases Node.decode? value with
          | none => rfl
          | some n =>
              dsimp only
              rw [node?_upsert]
              split <;> rfl
  | delete key =>
      rw [apply, applyDelete, Event.says?]
      cases Node.parseKey key with
      | none => rfl
      | some p =>
          dsimp only
          rw [node?_remove]
          by_cases h : service = p.1 ∧ id = p.2
          · rw [if_pos h, if_pos (by rw [h.1, h.2])]
            rfl
          · have hp : ¬some p = some (service, id) := by
              intro hp
              obtain rfl := Option.some.inj hp
              exact h ⟨rfl, rfl⟩
            rw [if_neg h, if_neg hp]
            rfl

/-- After events a topology has the node that was said last to be there. -/
theorem node?_replay_says? (t : Topology) (es : List Event) (service id : String) :
    (t.replay es).node? service id =
      ((es.filterMap (Event.says? service id)).getLast?).getD (t.node? service id) := by
  induction es generalizing t with
  | nil => rfl
  | cons e es ih =>
      rw [replay_cons, ih, node?_apply_says?, List.filterMap_cons]
      -- an event that says nothing leaves what was there, any other one is the new beginning
      cases e.says? service id with
      | none => rfl
      | some w => simp [List.getLast?_cons]

theorem node?_replay_empty (es : List Event) (service id : String) :
    (empty.replay es).node? service id = Event.lastSaid service id es := by
  rw [node?_replay_says?, node?_empty, Event.lastSaid]

theorem ofScan_records (history : List Event) :
    ofScan (Event.records history).entries = empty.replay (Event.rescan history) :=
  ofScan_eq_replay _

/-- Events, one by one, lead to the members of a scan of what they leave in the store if and only
if the last that they said of each node is also the last that the records left say of it. -/
theorem replay_sameMembers_ofScan_iff (history : List Event) :
    (empty.replay history).sameMembers (ofScan (Event.records history).entries) = true ↔
      ∀ service id,
        Event.lastSaid service id history = Event.lastSaid service id (Event.rescan history) := by
  rw [ofScan_records, (Proper.empty.replay _).sameMembers_iff (Proper.empty.replay _)]
  constructor
  · intro h service id
    rw [← node?_replay_empty, ← node?_replay_empty]
    exact h service id
  · intro h service id
    rw [node?_replay_empty, node?_replay_empty]
    exact h service id

/-- Bytes that are no record have taken the place of a node's record. Events keep the node, a scan
does not find it. -/
theorem replay_keeps_overwritten :
    let n := Node.new "svc" "10.0.0.1" 9000
    let history : List Event := [.put n.path n.encode, .put n.path [0]]
    (empty.replay history).names = ["svc"] ∧ (ofScan (Event.records history).entries).names = [] ∧
      (empty.replay history).sameMembers (ofScan (Event.records history).entries) = false := by
  decide +kernel

end Topology

end ServiceMesh
