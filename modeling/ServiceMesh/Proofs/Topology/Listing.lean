import ServiceMesh.Proofs.Node.Record
import ServiceMesh.Proofs.Store.Scan

/-!
A node among the nodes of its service. Its own record brings it in, and it stays until an event
takes it out: the deletion of its key, or another node that is put into its service with its
identifier. In a store where every record has the identifier of its key there is no such record.
-/

namespace ServiceMesh

def Event.TakesOut (n : Node) : Event → Prop
  | .put k v => ∃ q ∈ Node.parseKey k, q.1 = n.service ∧ ∃ m ∈ Node.decode? v, m.id = n.id ∧ m ≠ n
  | .delete k => Node.parseKey k = some (n.service, n.id)

instance (n : Node) (e : Event) : Decidable (e.TakesOut n) :=
  match e with
  | .put k _ => inferInstanceAs (Decidable (∃ q ∈ Node.parseKey k, _))
  | .delete k => inferInstanceAs (Decidable (Node.parseKey k = some (n.service, n.id)))

/-- The record is that of a node with the identifier in its key, unless it is none of a node. -/
def Node.IsLabelled (r : String × List UInt8) : Prop :=
  ∀ q ∈ parseKey r.1, ∀ m ∈ decode? r.2, m.id = q.2

instance (r : String × List UInt8) : Decidable (Node.IsLabelled r) :=
  inferInstanceAs (Decidable (∀ q ∈ Node.parseKey r.1, _))

namespace Topology

variable {t : Topology} {n : Node} {e : Event} {es : List Event}

def Lists (t : Topology) (n : Node) : Prop := t.node? n.service n.id = some n

theorem Lists.mem_nodes (h : t.Lists n) : n ∈ t.nodes n.service := List.mem_of_find?_eq_some h

theorem Lists.apply (h : t.Lists n) (he : ¬e.TakesOut n) : (t.apply e).1.Lists n := by
  cases e with
  | put k v =>
      rw [Topology.apply, applyPut]
      split
      · next service id m hk hv =>
          rw [Lists, node?_upsert]
          split
          · next hm =>
              obtain ⟨hs, hid⟩ := hm
              -- another node in the place would take this one out
              have hm : m = n := by
                by_contra hne
                exact he ⟨_, hk, hs.symm, m, hv, hid, hne⟩
              rw [hm]
          · exact h
      · exact h
  | delete k =>
      rw [Topology.apply, applyDelete]
      split
      · next service id hk =>
          rw [Lists, node?_remove, if_neg]
          · exact h
          · rintro ⟨rfl, rfl⟩
            exact he hk
      · exact h

theorem Lists.replay (h : t.Lists n) (hes : ∀ e ∈ es, ¬e.TakesOut n) : (t.replay es).Lists n := by
  induction es generalizing t with
  | nil => exact h
  | cons e es ih =>
      exact ih (h.apply (hes e List.mem_cons_self)) fun e' he' =>
        hes e' (List.mem_cons_of_mem e he')

/-- The record of a node brings it in. -/
theorem lists_apply_put (hk : Node.parseKey n.path = some (n.service, n.id)) (t : Topology) :
    (t.apply (.put n.path n.encode)).1.Lists n := by
  rw [Topology.apply, applyPut, hk, n.decode?_encode]
  dsimp only
  rw [Lists, node?_upsert, if_pos ⟨rfl, rfl⟩]

theorem lists_replay_of_mem (hk : Node.parseKey n.path = some (n.service, n.id))
    (hes : ∀ e ∈ es, ¬e.TakesOut n) (hmem : .put n.path n.encode ∈ es) (t : Topology) :
    (t.replay es).Lists n := by
  induction es generalizing t with
  | nil => cases hmem
  | cons e es ih =>
      have hes' : ∀ e ∈ es, ¬e.TakesOut n := fun e' he' => hes e' (List.mem_cons_of_mem e he')
      rcases List.mem_cons.1 hmem with rfl | hmem
      · exact (lists_apply_put hk t).replay hes'
      · exact ih hes' hmem _

/-- No record with the identifier of its key takes a node out, except under the key of the node. -/
theorem not_takesOut_put (hk : Node.parseKey n.path = some (n.service, n.id))
    {r : String × List UInt8} (hr : Node.IsLabelled r) (hne : r.1 ≠ n.path) :
    ¬(Event.put r.1 r.2).TakesOut n := by
  rintro ⟨⟨service, id⟩, hq, rfl, m, hm, hid, -⟩
  obtain rfl : m.id = id := hr _ hq m hm
  exact hne (Node.parseKey_injective (hid ▸ hq) hk)

/-- A scan of a store finds a node by its record. -/
theorem lists_ofScan {s : Store} (hk : Node.parseKey n.path = some (n.service, n.id))
    (hown : s.get? n.path = some n.encode)
    (hothers : ∀ r ∈ s.nodes, r.1 ≠ n.path → Node.IsLabelled r) : (ofScan s.nodes).Lists n := by
  rw [ofScan_eq_replay]
  refine lists_replay_of_mem hk (fun e he => ?_) (List.mem_map.2 ⟨(n.path, n.encode), ?_, rfl⟩) _
  · obtain ⟨r, hr, rfl⟩ := List.mem_map.1 he
    by_cases hne : r.1 = n.path
    · -- the record of the node itself
      have hv := Store.mem_nodes hr
      rw [hne, hown] at hv
      rw [hne, ← Option.some.inj hv]
      rintro ⟨q, -, -, m, hm, -, hmn⟩
      rw [n.decode?_encode] at hm
      exact hmn (Option.some.inj hm).symm
    · exact not_takesOut_put hk (hothers r hr hne) hne
  · rw [← Store.lookup_scanFrom s (Node.isPrefixOf_of_parseKey hk)] at hown
    exact Entries.mem_of_lookup hown

end Topology

end ServiceMesh
