import ServiceMesh.Proofs.Node.Record
import ServiceMesh.Proofs.Topology.Representation

/-!
Publishing a node and withdrawing it. Its record brings it into the topology just as it is, in the
place of the node with its identifier or at the end, and leaves everything else alone. If there was
no such node, the deletion of its key undoes all of it: a service that was there keeps its nodes in
their order, and one that came with the node goes with it.
-/

namespace ServiceMesh

/-! ### Nodes that say something about themselves -/

namespace Node

def withInfos (n : Node) (info : List (String × String)) : Node :=
  info.foldl (fun n e => n.withInfo e.1 e.2) n

/-- All that entries change is the info. -/
theorem withInfos_eq (n : Node) (info : List (String × String)) :
    n.withInfos info = { n with info := info.foldl (fun m e => m.insert e.1 e.2) n.info } := by
  induction info generalizing n with
  | nil => rfl
  | cons e info ih => exact ih (n.withInfo e.1 e.2)

theorem IsMade.withInfos {n : Node} (h : n.IsMade) (info : List (String × String)) :
    (n.withInfos info).IsMade := by
  rw [withInfos_eq]
  exact ⟨h.id, h.path⟩

/-- The key of the node of a named service stands for the node, whatever it says. -/
theorem parseKey_path_new {service : String} (hs : service ≠ "") (ip : String) (port : UInt16)
    (info : List (String × String)) :
    let n := (new service ip port).withInfos info
    parseKey n.path = some (service, n.id) := by
  intro n
  have hn : n.IsMade := (isMade_new service ip port).withInfos info
  have hservice : n.service = service := by rw [show n = _ from withInfos_eq _ info]; rfl
  rw [hn.parseKey_path (hservice ▸ hs), hservice]

end Node

/-! ### The place of a node in its service -/

namespace Service

theorem upsertNode_cases (n : Node) (l : List Node) :
    (∃ before m after, m.id = n.id ∧ l = before ++ m :: after ∧
      upsertNode n l = before ++ n :: after) ∨
    (n.id ∉ l.map (·.id) ∧ upsertNode n l = l ++ [n]) := by
  induction l with
  | nil => exact .inr ⟨List.not_mem_nil, rfl⟩
  | cons m l ih =>
      by_cases hm : m.id = n.id
      · refine .inl ⟨[], m, l, hm, rfl, ?_⟩
        rw [upsertNode, if_pos hm]
        rfl
      · rw [upsertNode, if_neg hm]
        obtain ⟨before, m', after, hm', hl, hu⟩ | ⟨hn, hu⟩ := ih
        · exact .inl ⟨m :: before, m', after, hm', by rw [hl]; rfl, by rw [hu]; rfl⟩
        · refine .inr ⟨?_, by rw [hu]; rfl⟩
          rw [List.map_cons, List.mem_cons, not_or]
          exact ⟨Ne.symm hm, hn⟩

theorem upsertNode_of_notMem {n : Node} {l : List Node} (h : n.id ∉ l.map (·.id)) :
    upsertNode n l = l ++ [n] := by
  obtain ⟨before, m, after, hm, rfl, -⟩ | ⟨-, hu⟩ := upsertNode_cases n l
  · exact absurd (List.mem_map.2 ⟨m, List.mem_append_cons_self, hm⟩) h
  · exact hu

theorem mem_upsertNode (n : Node) (l : List Node) : n ∈ upsertNode n l := by
  obtain ⟨before, m, after, -, -, hu⟩ | ⟨-, hu⟩ := upsertNode_cases n l
  · exact hu ▸ List.mem_append_cons_self
  · exact hu ▸ List.mem_append_right _ List.mem_cons_self

end Service

namespace Topology

/-- A node was put into a service of a topology, and that is all: it stands in the place of the node
with its identifier if there was one, otherwise at the end. -/
structure Gained (t u : Topology) (service : String) (n : Node) : Prop where
  found : ∃ s, u.get? service = some s ∧ s.name = service ∧
    s.nodes.filter (fun m => m.id = n.id) = [n]
  placed : (∃ before m after, m.id = n.id ∧ t.nodes service = before ++ m :: after ∧
      u.nodes service = before ++ n :: after) ∨
    (n.id ∉ (t.nodes service).map (·.id) ∧ u.nodes service = t.nodes service ++ [n])
  others : ∀ name, name ≠ service → u.get? name = t.get? name

variable {t : Topology}

theorem Proper.gained_upsert (h : t.Proper) (service : String) (n : Node) :
    t.Gained (t.upsert service n) service n where
  found := by
    refine ⟨⟨service, Service.upsertNode n (t.nodes service)⟩, ?_, rfl, ?_⟩
    · rw [get?_upsert, if_pos rfl]
    · exact Keyed.filter_eq_singleton (Service.nodup_upsertNode (h.nodup service) n)
        (Service.mem_upsertNode n _)
  placed := by
    rw [nodes_upsert, if_pos rfl]
    exact Service.upsertNode_cases n (t.nodes service)
  others name hname := get?_upsert_of_ne (Ne.symm hname) n

/-- To put a new node in and to take it out again leaves the topology as it was. -/
theorem Sound.remove_upsert (h : t.Sound) {service : String} {n : Node}
    (hn : n.id ∉ (t.nodes service).map (·.id)) :
    (t.upsert service n).remove service n.id = t := by
  suffices H : ((t.upsert service n).remove service n.id).services = t.services from
    congrArg Topology.mk H
  apply KeyMap.ext_get?
  intro name
  change ((t.upsert service n).remove service n.id).get? name = t.get? name
  by_cases hname : name = service
  · subst hname
    -- what is left of the nodes is what was there before
    have hrest : (Service.upsertNode n (t.nodes name)).filter (fun m => m.id ≠ n.id) =
        t.nodes name := by
      have hkeep : ∀ m ∈ t.nodes name, decide (m.id ≠ n.id) = true := fun m hm =>
        decide_eq_true fun he => hn (List.mem_map.2 ⟨m, hm, he⟩)
      rw [Service.upsertNode_of_notMem hn, List.filter_append, List.filter_eq_self.2 hkeep,
        List.filter_cons_of_neg (by simp), List.filter_nil, List.append_nil]
    rw [get?_remove, if_pos rfl, get?_upsert, if_pos rfl, Option.bind_some, hrest, nodes]
    cases hs : t.get? name with
    | none => rfl
    | some s =>
        rw [if_neg (by simpa using h.nodes_ne_nil hs), ← (h.named name s hs).1]
  · rw [get?_remove_of_ne (Ne.symm hname), get?_upsert_of_ne (Ne.symm hname)]

/-- The record of a node under its key. -/
theorem applyPut_record {key service id : String} {n : Node} {value : List UInt8}
    (hkey : Node.parseKey key = some (service, id)) (hvalue : n.IsRecord value) (t : Topology) :
    t.applyPut key value = (t.upsert service n, true) := by
  rw [applyPut, hkey, hvalue.decode?_eq]

theorem hasNode_upsert (t : Topology) (service : String) (n : Node) :
    (t.upsert service n).hasNode service n.id = true := by
  rw [hasNode, nodes_upsert, if_pos rfl, List.any_eq_true]
  exact ⟨n, Service.mem_upsertNode n _, decide_eq_true rfl⟩

/-- A record of a node of a named service, such as its member writes, puts that very node into the
service and changes nothing else. If the service had no node with its identifier, the deletion of
the key gives back the topology of before. -/
theorem published_then_withdrawn {t : Topology} (ht : t.Reachable) {service : String}
    (hs : service ≠ "") (ip : String) (port : UInt16) (info : List (String × String)) :
    let n := (Node.new service ip port).withInfos info
    n.IsRecord n.encode ∧ ∀ value, n.IsRecord value →
      let u := (t.applyPut n.path value).1
      (t.applyPut n.path value).2 = true ∧ t.Gained u service n ∧
        (n.id ∉ (t.nodes service).map (·.id) → u.applyDelete n.path = (t, true)) := by
  intro n
  refine ⟨n.isRecord_encode, fun value hvalue => ?_⟩
  have hkey : Node.parseKey n.path = some (service, n.id) :=
    Node.parseKey_path_new hs ip port info
  rw [applyPut_record hkey hvalue]
  refine ⟨rfl, ht.proper.gained_upsert service n, fun hn => ?_⟩
  rw [applyDelete, hkey]
  dsimp only
  rw [ht.sound.remove_upsert hn, hasNode_upsert]

/-- A service with a slash in its name and another node in it. The info is listed out of order, and
it has quotes and control characters. -/
theorem published_then_withdrawn_slashed :
    let neighbour := Node.new "shop/eu" "10.0.0.1" 9001
    let t := ofScan [(neighbour.path, neighbour.encode)]
    let info := [("zone", "\"b\"\n"), ("note/1", "\x01 ü")]
    let n := (Node.new "shop/eu" "10.0.0.2" 9001).withInfos info
    let u := (t.applyPut n.path (n.encodeWith info)).1
    t.Reachable ∧ "shop/eu" ≠ "" ∧ n.IsRecord (n.encodeWith info) ∧
      n.id ∉ (t.nodes "shop/eu").map (·.id) ∧ t.Gained u "shop/eu" n ∧
        u.applyDelete n.path = (t, true) := by
  intro neighbour t info n u
  have ht : t.Reachable := .ofScan _
  have hrecord : n.IsRecord (n.encodeWith info) := ⟨info, by decide +kernel, rfl⟩
  have hnew : n.id ∉ (t.nodes "shop/eu").map (·.id) := by decide +kernel
  have hs : "shop/eu" ≠ "" := by decide
  obtain ⟨-, hall⟩ := published_then_withdrawn ht hs "10.0.0.2" 9001 info
  obtain ⟨-, hgained, hback⟩ := hall _ hrecord
  exact ⟨ht, hs, hrecord, hnew, hgained, hback hnew⟩

end Topology

end ServiceMesh
