import ServiceMesh.Proofs.Topology.Representation

/-!
Being the same up to order. Nodes are compared after they are put in the order of their
identifiers, which says nothing about two nodes with one identifier. In the topologies that scans
and events lead to there are no two such nodes in a service, and there the comparison is one of
membership: services under the same names, with the same nodes in whatever order.
-/

namespace ServiceMesh

def Service.SameUpToOrder (s s' : Service) : Prop := s.name = s'.name ∧ s.nodes.Perm s'.nodes

namespace Topology

variable {t u v : Topology}

theorem names_eq_of_sameMembers (h : t.sameMembers u = true) : t.names = u.names := by
  rw [sameMembers, Bool.and_eq_true, decide_eq_true_eq] at h
  exact h.1

theorem Proper.sameMembers_iff_perm_nodes (ht : t.Proper) (hu : u.Proper) :
    t.sameMembers u = true ↔ ∀ name, (t.nodes name).Perm (u.nodes name) := by
  rw [ht.sameMembers_iff hu]
  exact forall_congr' fun name => (ht.perm_nodes_iff hu name).symm

theorem Proper.sameMembers_refl (ht : t.Proper) : t.sameMembers t = true :=
  (ht.sameMembers_iff_perm_nodes ht).2 fun _ => .refl _

theorem Proper.sameMembers_symm (ht : t.Proper) (hu : u.Proper) (h : t.sameMembers u = true) :
    u.sameMembers t = true := by
  rw [ht.sameMembers_iff_perm_nodes hu] at h
  exact (hu.sameMembers_iff_perm_nodes ht).2 fun name => (h name).symm

theorem Proper.sameMembers_trans (ht : t.Proper) (hu : u.Proper) (hv : v.Proper)
    (htu : t.sameMembers u = true) (huv : u.sameMembers v = true) : t.sameMembers v = true := by
  rw [ht.sameMembers_iff_perm_nodes hu] at htu
  rw [hu.sameMembers_iff_perm_nodes hv] at huv
  exact (ht.sameMembers_iff_perm_nodes hv).2 fun name => (htu name).trans (huv name)

theorem mem_names_iff_isSome {name : String} : name ∈ t.names ↔ (t.get? name).isSome = true :=
  t.services.mem_keys_iff

theorem nodes_eq_nil_of_notMem_names {name : String} (h : name ∉ t.names) : t.nodes name = [] := by
  rw [mem_names_iff_isSome, Option.not_isSome_iff_eq_none] at h
  rw [nodes, h]

theorem Reachable.rel_get? (ht : t.Reachable) (hu : u.Reachable) (h : t.sameMembers u = true)
    (name : String) : Option.Rel Service.SameUpToOrder (t.get? name) (u.get? name) := by
  have hsome : (t.get? name).isSome = (u.get? name).isSome := by
    rw [Bool.eq_iff_iff, ← mem_names_iff_isSome, names_eq_of_sameMembers h, mem_names_iff_isSome]
  have hperm := (ht.proper.sameMembers_iff_perm_nodes hu.proper).1 h name
  cases hs : t.get? name with
  | none =>
      cases hs' : u.get? name with
      | none => exact .none
      | some s' => simp [hs, hs'] at hsome
  | some s =>
      cases hs' : u.get? name with
      | none => simp [hs, hs'] at hsome
      | some s' =>
          have hname := (ht.sound.named name s hs).1.trans (hu.sound.named name s' hs').1.symm
          simp only [nodes, hs, hs'] at hperm
          exact .some ⟨hname, hperm⟩

/-- The comparison of topologies that scans and events lead to is that of their services, by name
and by nodes in whatever order. It is an equivalence that equal topologies are in, and topologies
that it holds of give the same answers up to the order of nodes. -/
theorem sameMembers_iff_perm :
    (∀ t u, Reachable t → Reachable u →
      (t.sameMembers u = true ↔
        t.names = u.names ∧ ∀ name ∈ t.names, (t.nodes name).Perm (u.nodes name))) ∧
    Equivalence (fun t u : {t : Topology // t.Reachable} => t.1.sameMembers u.1 = true) ∧
    (∀ t u, Reachable t → Reachable u → t = u → t.sameMembers u = true) ∧
    ∀ t u, Reachable t → Reachable u → t.sameMembers u = true →
      ∀ name, Option.Rel Service.SameUpToOrder (t.get? name) (u.get? name) := by
  refine ⟨fun t u ht hu => ?_, ⟨fun t => t.2.proper.sameMembers_refl,
    fun {t u} => t.2.proper.sameMembers_symm u.2.proper,
    fun {t u v} => t.2.proper.sameMembers_trans u.2.proper v.2.proper⟩, fun t u ht _ htu => ?_,
    fun t u ht hu h => ht.rel_get? hu h⟩
  · have hiff := ht.proper.sameMembers_iff_perm_nodes hu.proper
    refine ⟨fun h => ⟨names_eq_of_sameMembers h, fun name _ => hiff.1 h name⟩, ?_⟩
    rintro ⟨hnames, hperm⟩
    refine hiff.2 fun name => ?_
    by_cases hname : name ∈ t.names
    · exact hperm name hname
    · rw [nodes_eq_nil_of_notMem_names hname, nodes_eq_nil_of_notMem_names (hnames ▸ hname)]
  · exact htu ▸ ht.proper.sameMembers_refl

/-- Two nodes that a scan finds in one order and a scan and an event in the other. -/
theorem sameMembers_iff_perm_reordered :
    let m : Node := ⟨"0a", "svc", "/servers/svc/0a", "10.0.0.1", 9000, ∅⟩
    let n : Node := ⟨"0b", "svc", "/servers/svc/0b", "10.0.0.2", 9000, ∅⟩
    let t := ofScan [(m.path, m.encode), (n.path, n.encode)]
    let u := ((ofScan [(n.path, n.encode)]).apply (.put m.path m.encode)).1
    t.Reachable ∧ u.Reachable ∧ t ≠ u ∧
      (t.names = u.names ∧ ∀ name ∈ t.names, (t.nodes name).Perm (u.nodes name)) ∧
      t.sameMembers u = true ∧
      ∀ name, Option.Rel Service.SameUpToOrder (t.get? name) (u.get? name) := by
  intro m n t u
  have ht : t.Reachable := .ofScan _
  have hu : u.Reachable := .apply (.ofScan _) _
  have hperm : t.names = u.names ∧ ∀ name ∈ t.names, (t.nodes name).Perm (u.nodes name) := by
    decide +kernel
  obtain ⟨hiff, -, -, hget⟩ := sameMembers_iff_perm
  have hsame : t.sameMembers u = true := (hiff t u ht hu).2 hperm
  exact ⟨ht, hu, by decide +kernel, hperm, hsame, hget t u ht hu hsame⟩

/-- With one identifier for both nodes their order would count. -/
example :
    let m : Node := ⟨"0a", "svc", "/servers/svc/0a", "10.0.0.1", 9000, ∅⟩
    let n : Node := ⟨"0a", "svc", "/servers/svc/0a", "10.0.0.2", 9000, ∅⟩
    byId [m, n] = [m, n] ∧ byId [n, m] = [n, m] := by
  cbv

end Topology

end ServiceMesh
