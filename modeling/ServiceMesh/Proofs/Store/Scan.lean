import ServiceMesh.Proofs.Topology.Replay

/-!
The ordered scan. In key order the keys with a given beginning stand together, right behind the
keys below it, so a scan finds all of them; and the topology of a scan has the node of every stored
record.
-/

namespace ServiceMesh

theorem not_lt_of_isPrefix {l k : List Char} (h : l <+: k) : ¬k < l := by
  induction l generalizing k with
  | nil => exact List.not_lt_nil k
  | cons c l ih =>
      obtain ⟨r, rfl⟩ := h
      rw [List.cons_append, List.cons_lt_cons_iff]
      rintro (hlt | ⟨-, hlt⟩)
      · exact absurd hlt (Char.lt_irrefl c)
      · exact ih (List.prefix_append l r) hlt

/-- What lies between a beginning and a key that has it has the beginning, too. -/
theorem isPrefix_of_lt {l j k : List Char} (hj : ¬j < l) (hk : j < k) (h : l <+: k) : l <+: j := by
  induction l generalizing j k with
  | nil => exact List.nil_prefix
  | cons c l ih =>
      obtain ⟨r, rfl⟩ := h
      cases j with
      | nil => exact absurd (List.nil_lt_cons c l) hj
      | cons d j =>
          rw [List.cons_lt_cons_iff, not_or] at hj
          rw [List.cons_append, List.cons_lt_cons_iff] at hk
          rcases hk with hlt | ⟨rfl, hlt⟩
          · exact absurd hlt hj.1
          · have hl : l <+: j := ih (fun hn => hj.2 ⟨rfl, hn⟩) hlt (List.prefix_append l r)
            exact List.cons_prefix_cons.2 ⟨rfl, hl⟩

namespace Store

variable {start : String} {l : List (String × Record)}

theorem takeWhile_eq_filter (h : Entries.Sorted l) (hl : ∀ r ∈ l, ¬r.1 < start) :
    l.takeWhile (fun r => start.toList.isPrefixOf r.1.toList) =
      l.filter fun r => start.toList.isPrefixOf r.1.toList := by
  induction l with
  | nil => rfl
  | cons a l ih =>
      obtain ⟨ha, hs⟩ := List.pairwise_cons.1 h
      have hl' : ∀ r ∈ l, ¬r.1 < start := fun r hr => hl r (List.mem_cons_of_mem _ hr)
      rw [List.takeWhile_cons, List.filter_cons]
      split
      · rw [ih hs hl']
      · next hno =>
          -- nothing behind the first key without the beginning has it
          symm
          rw [List.filter_eq_nil_iff]
          intro r hr hp
          refine hno (List.isPrefixOf_iff_prefix.2 ?_)
          exact isPrefix_of_lt (hl a List.mem_cons_self) (ha r hr) (List.isPrefixOf_iff_prefix.1 hp)

/-- A scan finds the pairs whose keys have the beginning. -/
theorem scanFrom_eq_filter (h : Entries.Sorted l) (start : String) :
    scanFrom start l =
      (l.filter fun r => start.toList.isPrefixOf r.1.toList).map fun r => (r.1, r.2.value) := by
  rw [scanFrom]
  congr 1
  induction l with
  | nil => rfl
  | cons a l ih =>
      obtain ⟨ha, hs⟩ := List.pairwise_cons.1 h
      rw [List.dropWhile_cons]
      split
      · next hlt =>
          have hlt : a.1 < start := of_decide_eq_true hlt
          have hno : ¬start.toList.isPrefixOf a.1.toList = true := fun hp =>
            not_lt_of_isPrefix (List.isPrefixOf_iff_prefix.1 hp) hlt
          rw [ih hs, List.filter_cons, if_neg hno]
      · next hge =>
          refine takeWhile_eq_filter h fun r hr => ?_
          have hge : ¬a.1 < start := by simpa using hge
          rcases List.mem_cons.1 hr with rfl | hr
          · exact hge
          · exact fun hlt => hge (String.lt_trans (ha r hr) hlt)

theorem lookup_map_filter (key : String) (hp : start.toList.isPrefixOf key.toList = true) :
    Entries.lookup key
        ((l.filter fun r => start.toList.isPrefixOf r.1.toList).map fun r => (r.1, r.2.value)) =
      (Entries.lookup key l).map (·.value) := by
  induction l with
  | nil => rfl
  | cons a l ih =>
      by_cases hk : a.1 = key
      · rw [List.filter_cons_of_pos (by rw [hk]; exact hp)]
        simp [Entries.lookup, hk]
      · rw [List.filter_cons]
        split
        · simpa [Entries.lookup, hk] using ih
        · simpa [Entries.lookup, hk] using ih

theorem lookup_scanFrom (s : Store) {key : String}
    (hp : start.toList.isPrefixOf key.toList = true) :
    Entries.lookup key (scanFrom start s.records.entries) = s.get? key := by
  rw [scanFrom_eq_filter s.records.sorted, lookup_map_filter key hp]
  rfl

def nodes (s : Store) : List (String × List UInt8) := scanFrom servicePrefix s.records.entries

theorem nodup_nodes (s : Store) : (s.nodes.map (·.1)).Nodup := by
  rw [nodes, scanFrom_eq_filter s.records.sorted, List.map_map]
  refine List.pairwise_map.2 (List.Pairwise.imp (fun hab => String.ne_of_lt hab) ?_)
  exact s.records.sorted.sublist List.filter_sublist

theorem mem_nodes {s : Store} {r : String × List UInt8} (h : r ∈ s.nodes) :
    s.get? r.1 = some r.2 := by
  rw [nodes, scanFrom_eq_filter s.records.sorted] at h
  obtain ⟨a, ha, rfl⟩ := List.mem_map.1 h
  have hget : s.records.get? a.1 = some a.2 :=
    s.records.mem_entries_iff.1 (List.mem_filter.1 ha).1
  rw [get?, hget]
  rfl

end Store

namespace Topology

/-- In a store with well-formed events a scan finds well-formed records. -/
theorem wellFormedScan_nodes {s : Store} (h : s.Logged)
    (hes : ∀ e ∈ s.published.toList, e.WellFormed) : WellFormedScan s.nodes := by
  refine ⟨s.nodup_nodes, fun r hr => ?_⟩
  have hget := Store.mem_nodes hr
  rw [h] at hget
  rcases Event.mem_of_record_eq_some hget with hv | hm
  · cases hv
  · exact hes _ hm

/-- The topology of a full scan has the node of every record. -/
theorem nodeAt?_ofScan_nodes {s : Store} (h : WellFormedScan s.nodes) (key : String) :
    (ofScan s.nodes).nodeAt? key = nodeOf key (s.get? key) := by
  rw [nodeAt?_ofScan h]
  cases hk : Node.parseKey key with
  | none => rw [nodeOf, nodeOf, hk]; rfl
  | some p => rw [Store.nodes, s.lookup_scanFrom (Node.isPrefixOf_of_parseKey hk)]

end Topology

end ServiceMesh
