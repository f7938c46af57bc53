import Mathlib.Data.List.Nodup
import Mathlib.Tactic.Common
import ServiceMesh.Proofs.Keyed
import ServiceMesh.Topology

/-!
A topology as a table of nodes. What a topology knows is the node that it has for each pair of a
service and an identifier; the order of the nodes of a service does not count. In a proper topology
identifiers do not repeat within a service and no service is empty, and then two topologies have
the same members exactly when their tables agree.
-/

namespace ServiceMesh

/-! ### The nodes of one service -/

namespace Service

theorem find?_upsertNode (n : Node) (l : List Node) (id : String) :
    (upsertNode n l).find? (fun m => m.id = id) =
      if n.id = id then some n else l.find? fun m => m.id = id := by
  induction l with
  | nil => by_cases h : n.id = id <;> simp [upsertNode, h]
  | cons m l ih =>
      rw [upsertNode]
      split
      · next hm =>
          by_cases h : n.id = id
          · simp [h]
          · simp [h, hm]
      · next hm =>
          by_cases h : n.id = id
          · have hmid : m.id ≠ id := fun he => hm (he.trans h.symm)
            rw [List.find?_cons_of_neg (by simpa using hmid), ih, if_pos h, if_pos h]
          · rw [if_neg h] at ih ⊢
            rw [List.find?_cons, List.find?_cons, ih]

theorem map_id_upsertNode (n : Node) (l : List Node) :
    (upsertNode n l).map (·.id) =
      if n.id ∈ l.map (·.id) then l.map (·.id) else l.map (·.id) ++ [n.id] := by
  induction l with
  | nil => rfl
  | cons m l ih =>
      rw [upsertNode]
      split
      · next hm => simp [hm]
      · next hm =>
          have hm' : n.id ≠ m.id := Ne.symm hm
          simp only [List.map_cons, ih, List.mem_cons, hm', false_or]
          split <;> rfl

theorem nodup_upsertNode {l : List Node} (h : (l.map (·.id)).Nodup) (n : Node) :
    ((upsertNode n l).map (·.id)).Nodup := by
  rw [map_id_upsertNode]
  split
  · exact h
  · next hn =>
      rw [List.nodup_append]
      refine ⟨h, List.pairwise_singleton _ _, fun a ha b hb hab => hn ?_⟩
      rw [List.mem_singleton] at hb
      exact hb ▸ hab ▸ ha

theorem upsertNode_ne_nil (n : Node) (l : List Node) : upsertNode n l ≠ [] := by
  cases l with
  | nil => simp [upsertNode]
  | cons m l =>
      rw [upsertNode]
      split <;> simp

end Service

namespace Topology

def node? (t : Topology) (service id : String) : Option Node :=
  (t.nodes service).find? fun n => n.id = id

/-- No service is empty, and the identifiers within a service are distinct. -/
structure Proper (t : Topology) : Prop where
  nodes_ne_nil : ∀ {name s}, t.get? name = some s → s.nodes ≠ []
  nodup : ∀ name, ((t.nodes name).map (·.id)).Nodup

/-! ### Look-ups after a change -/

@[simp] theorem get?_empty (name : String) : empty.get? name = none := rfl

@[simp] theorem nodes_empty (name : String) : empty.nodes name = [] := rfl

@[simp] theorem node?_empty (service id : String) : empty.node? service id = none := rfl

theorem get?_upsert (t : Topology) (service name : String) (n : Node) :
    (t.upsert service n).get? name =
      if name = service then some ⟨service, Service.upsertNode n (t.nodes service)⟩
      else t.get? name :=
  KeyMap.get?_insert t.services service name _

theorem nodes_upsert (t : Topology) (service name : String) (n : Node) :
    (t.upsert service n).nodes name =
      if name = service then Service.upsertNode n (t.nodes service) else t.nodes name := by
  by_cases hn : name = service
  · rw [nodes, get?_upsert, if_pos hn, if_pos hn]
  · rw [nodes, get?_upsert, if_neg hn, if_neg hn]
    rfl

theorem get?_remove (t : Topology) (service id name : String) :
    (t.remove service id).get? name =
      if name = service then
        (t.get? service).bind fun s =>
          if (s.nodes.filter fun n => n.id ≠ id).isEmpty then none
          else some ⟨s.name, s.nodes.filter fun n => n.id ≠ id⟩
      else t.get? name := by
  rw [remove]
  split
  · next h =>
      split
      · next hn => rw [hn, h]; rfl
      · rfl
  · next s h =>
      simp only [h, Option.bind_some]
      split
      · exact KeyMap.get?_erase t.services service name
      · exact KeyMap.get?_insert t.services service name _

theorem nodes_remove (t : Topology) (service id name : String) :
    (t.remove service id).nodes name =
      if name = service then (t.nodes service).filter fun n => n.id ≠ id else t.nodes name := by
  by_cases hn : name = service
  · rw [nodes, get?_remove, if_pos hn, if_pos hn, nodes]
    cases t.get? service with
    | none => rfl
    | some s =>
        simp only [Option.bind_some]
        split
        · next he =>
            split at he
            · cases he
            · exact (Option.some.inj he ▸ rfl)
        · next he =>
            split at he
            · next hempty => exact (List.isEmpty_iff.1 hempty).symm
            · cases he
  · rw [nodes, get?_remove, if_neg hn, if_neg hn]
    rfl

theorem node?_upsert (t : Topology) (service name id : String) (n : Node) :
    (t.upsert service n).node? name id =
      if name = service ∧ n.id = id then some n else t.node? name id := by
  rw [node?, nodes_upsert]
  by_cases hn : name = service
  · subst hn
    rw [if_pos rfl, Service.find?_upsertNode]
    simp only [true_and]
    rfl
  · rw [if_neg hn, if_neg fun h => hn h.1]
    rfl

theorem node?_remove (t : Topology) (service name id id' : String) :
    (t.remove service id).node? name id' =
      if name = service ∧ id' = id then none else t.node? name id' := by
  rw [node?, nodes_remove]
  by_cases hn : name = service
  · subst hn
    rw [if_pos rfl, List.find?_filter]
    by_cases hi : id' = id
    · subst hi
      simp
    · rw [if_neg fun h => hi h.2, node?]
      congr 1
      funext m
      by_cases hm : m.id = id'
      · simp [hm, hi]
      · simp [hm]
  · rw [if_neg hn, if_neg fun h => hn h.1]
    rfl

/-! ### Proper topologies -/

theorem Proper.empty : Proper empty where
  nodes_ne_nil h := by cases h
  nodup _ := List.nodup_nil

theorem Proper.upsert {t : Topology} (h : t.Proper) (service : String) (n : Node) :
    (t.upsert service n).Proper where
  nodes_ne_nil := by
    intro name s hs
    rw [get?_upsert] at hs
    split at hs
    · obtain rfl := Option.some.inj hs
      exact Service.upsertNode_ne_nil n _
    · exact h.nodes_ne_nil hs
  nodup name := by
    rw [nodes_upsert]
    split
    · exact Service.nodup_upsertNode (h.nodup service) n
    · exact h.nodup name

theorem Proper.remove {t : Topology} (h : t.Proper) (service id : String) :
    (t.remove service id).Proper where
  nodes_ne_nil := by
    intro name s hs
    rw [get?_remove] at hs
    split at hs
    · obtain ⟨s', -, hs⟩ := Option.bind_eq_some_iff.1 hs
      split at hs
      · cases hs
      · next hne =>
          obtain rfl := Option.some.inj hs
          simpa using hne
    · exact h.nodes_ne_nil hs
  nodup name := by
    rw [nodes_remove]
    split
    · exact (h.nodup service).sublist (List.filter_sublist.map _)
    · exact h.nodup name

theorem Proper.applyPut {t : Topology} (h : t.Proper) (key : String) (value : List UInt8) :
    (t.applyPut key value).1.Proper := by
  rw [Topology.applyPut]
  split
  · exact h.upsert _ _
  · exact h

theorem Proper.apply {t : Topology} (h : t.Proper) (e : Event) : (t.apply e).1.Proper := by
  cases e with
  | put key value => exact h.applyPut key value
  | delete key =>
      rw [Topology.apply, applyDelete]
      split
      · exact h.remove _ _
      · exact h

theorem Proper.remove_of_hasNode_eq_false {t : Topology} (h : t.Proper) {service id : String}
    (hn : t.hasNode service id = false) : t.remove service id = t := by
  suffices H : (t.remove service id).services = t.services from congrArg Topology.mk H
  refine KeyMap.ext_get? fun name => ?_
  change (t.remove service id).get? name = t.get? name
  rw [get?_remove]
  split
  · next hname =>
      subst hname
      cases hs : t.get? name with
      | none => rfl
      | some s =>
          -- no node is taken out, so the service stays, and it had nodes before
          have hkeep : (s.nodes.filter fun n => n.id ≠ id) = s.nodes := by
            rw [List.filter_eq_self]
            rw [hasNode, nodes, hs] at hn
            simpa using hn
          rw [Option.bind_some, hkeep, if_neg (by simpa using h.nodes_ne_nil hs)]
  · rfl

/-- An event that is said to change nothing changes nothing. -/
theorem Proper.apply_of_not_changed {t : Topology} (h : t.Proper) {e : Event}
    (hc : (t.apply e).2 = false) : (t.apply e).1 = t := by
  cases e with
  | put key value =>
      rw [Topology.apply, Topology.applyPut] at hc ⊢
      split at hc
      · cases hc
      · rfl
  | delete key =>
      rw [Topology.apply, applyDelete] at hc ⊢
      split at hc
      · exact h.remove_of_hasNode_eq_false hc
      · rfl

theorem Proper.ofScan (records : List (String × List UInt8)) : (ofScan records).Proper := by
  -- a scan starts from the empty topology, its rest from any
  suffices H : ∀ (l : List (String × List UInt8)) (t : Topology), t.Proper →
      (l.foldl (fun t r => (t.applyPut r.1 r.2).1) t).Proper from H records _ .empty
  intro l
  induction l with
  | nil => exact fun t h => h
  | cons r l ih => exact fun t h => ih _ (h.applyPut r.1 r.2)

/-- The services of a proper topology are those with a node. -/
theorem Proper.mem_names_iff {t : Topology} (h : t.Proper) {name : String} :
    name ∈ t.names ↔ ∃ id, t.node? name id ≠ none := by
  rw [names, KeyMap.mem_keys_iff, Option.isSome_iff_exists]
  constructor
  · rintro ⟨s, hs⟩
    have hs : t.get? name = some s := hs
    obtain ⟨n, l, hl⟩ := List.exists_cons_of_ne_nil (h.nodes_ne_nil hs)
    refine ⟨n.id, ?_⟩
    simp [node?, nodes, hs, hl]
  · rintro ⟨id, hid⟩
    cases hs : t.get? name with
    | none => simp [node?, nodes, hs] at hid
    | some s => exact ⟨s, hs⟩

/-! ### The same members -/

theorem byId_eq_iff_perm {l l' : List Node} (h : (l.map (·.id)).Nodup) :
    byId l = byId l' ↔ l.Perm l' := by
  constructor
  · intro he
    calc
      l.Perm (byId l) := (List.mergeSort_perm l _).symm
      _ = byId l' := he
      List.Perm _ l' := List.mergeSort_perm l' _
  · intro hp
    have hsorted (m : List Node) : (byId m).Pairwise fun a b => a.id ≤ b.id := by
      have hs : (byId m).Pairwise fun a b => decide (a.id ≤ b.id) = true :=
        List.pairwise_mergeSort
          (fun a b c hab hbc => by
            rw [decide_eq_true_eq] at *
            exact String.le_trans hab hbc)
          (fun a b => by simpa using String.le_total a.id b.id) m
      simpa using hs
    have hperm : (byId l).Perm (byId l') :=
      ((List.mergeSort_perm l _).trans hp).trans (List.mergeSort_perm l' _).symm
    -- two sorted permutations are equal, since equal identifiers mean the same node
    refine List.Perm.eq_of_pairwise (fun a b ha hb hab hba => ?_) (hsorted l) (hsorted l') hperm
    have ha : a ∈ l := List.mem_mergeSort.1 ha
    have hb : b ∈ l := hp.mem_iff.2 (List.mem_mergeSort.1 hb)
    exact List.inj_on_of_nodup_map h ha hb (String.le_antisymm hab hba)

theorem Proper.perm_nodes_iff {t u : Topology} (ht : t.Proper) (hu : u.Proper) (name : String) :
    (t.nodes name).Perm (u.nodes name) ↔ ∀ id, t.node? name id = u.node? name id := by
  have ht' := List.Nodup.of_map _ (ht.nodup name)
  have hu' := List.Nodup.of_map _ (hu.nodup name)
  rw [List.perm_ext_iff_of_nodup ht' hu']
  constructor
  · intro h id
    apply Option.ext
    intro n
    rw [node?, node?, Keyed.find?_eq_some_iff (ht.nodup name),
      Keyed.find?_eq_some_iff (hu.nodup name), h n]
  · intro h n
    have hn : t.node? name n.id = some n ↔ u.node? name n.id = some n := by rw [h n.id]
    rw [node?, node?, Keyed.find?_eq_some_iff (ht.nodup name),
      Keyed.find?_eq_some_iff (hu.nodup name)] at hn
    simpa using hn

/-- Proper topologies have the same members exactly when they have the same node for every service
and identifier. -/
theorem Proper.sameMembers_iff {t u : Topology} (ht : t.Proper) (hu : u.Proper) :
    t.sameMembers u = true ↔ ∀ service id, t.node? service id = u.node? service id := by
  rw [sameMembers, Bool.and_eq_true, decide_eq_true_eq, List.all_eq_true]
  constructor
  · rintro ⟨hnames, hall⟩ service
    rw [← ht.perm_nodes_iff hu]
    cases hs : t.get? service with
    | none =>
        have hn : service ∉ u.names := by
          rw [← hnames, names, KeyMap.mem_keys_iff]
          exact fun h => by simp [show t.services.get? service = none from hs] at h
        have hu' : u.get? service = none := by
          rw [names, KeyMap.mem_keys_iff] at hn
          simpa [get?] using hn
        simp [nodes, hs, hu']
    | some s =>
        have he := hall (service, s) (t.services.mem_entries_iff.2 hs)
        simp only at he
        split at he
        · next s' hs' =>
            have hnodup : (s.nodes.map (·.id)).Nodup := by
              simpa [nodes, hs] using ht.nodup service
            have hp := (byId_eq_iff_perm hnodup).1 (by simpa using he)
            simpa [nodes, hs, hs'] using hp
        · cases he
  · intro h
    -- both lists of names are sorted, so it is enough that they have the same elements
    have hnames : t.names = u.names := by
      refine List.Perm.eq_of_pairwise (fun a b _ _ hab hba => ?_)
        t.services.keys_sorted u.services.keys_sorted ?_
      · exact absurd hab (String.lt_asymm hba)
      · have nodup (v : Topology) : v.names.Nodup :=
          v.services.keys_sorted.imp fun hab => String.ne_of_lt hab
        rw [List.perm_ext_iff_of_nodup (nodup t) (nodup u)]
        intro name
        rw [ht.mem_names_iff, hu.mem_names_iff]
        simp only [h]
    refine ⟨hnames, ?_⟩
    rintro ⟨name, s⟩ he
    have hs : t.get? name = some s := t.services.mem_entries_iff.1 he
    have hmem : name ∈ u.names := hnames ▸ List.mem_map.2 ⟨(name, s), he, rfl⟩
    rw [names, KeyMap.mem_keys_iff, Option.isSome_iff_exists] at hmem
    obtain ⟨s', hs'⟩ := hmem
    have hs' : u.get? name = some s' := hs'
    have hp := (ht.perm_nodes_iff hu name).2 (h name)
    have hnodup : (s.nodes.map (·.id)).Nodup := by simpa [nodes, hs] using ht.nodup name
    simp only [nodes, hs, hs'] at hp
    simpa [hs'] using (byId_eq_iff_perm hnodup).2 hp

end Topology

end ServiceMesh
