import Mathlib.Data.List.Nodup
import Mathlib.Tactic.Common
import ServiceMesh.Gateway.Chain

/-!
Things with priorities, put into the order in which a request meets them: that of the priorities,
and among equal ones the one added later comes first. What is added before everything else stands
in front of the first thing of a higher priority, and that is all there is to know. The order does
not depend on what the things are, and it stays the same for those that are left when others go.
-/

namespace ServiceMesh.Gateway

variable {α β : Type}

/-- From the outside in: the reverse of a sort that begins with the highest priority. -/
def inOrder (entries : List (Int32 × α)) : List (Int32 × α) :=
  (entries.mergeSort fun a b => b.1 ≤ a.1).reverse

/-- Of two entries, each with the place where it was added, the first one stands further out. -/
def Outside (a b : (Int32 × α) × Nat) : Prop := a.1.1 < b.1.1 ∨ a.1.1 = b.1.1 ∧ b.2 < a.2

theorem Chain.reverse_sorted (c : Chain) : c.sorted.reverse = inOrder c.entries := rfl

@[simp] theorem inOrder_nil : inOrder ([] : List (Int32 × α)) = [] := by
  rw [inOrder, List.mergeSort_nil, List.reverse_nil]

theorem inOrder_perm (entries : List (Int32 × α)) : (inOrder entries).Perm entries :=
  (List.reverse_perm _).trans (List.mergeSort_perm _ _)

section

variable (a b c : Int32 × α)

theorem priority_le_trans (hab : decide (b.1 ≤ a.1) = true) (hbc : decide (c.1 ≤ b.1) = true) :
    decide (c.1 ≤ a.1) = true :=
  decide_eq_true (Int32.le_trans (of_decide_eq_true hbc) (of_decide_eq_true hab))

theorem priority_le_total : (decide (b.1 ≤ a.1) || decide (a.1 ≤ b.1)) = true := by
  simpa using Int32.le_total b.1 a.1

end

/-- The place of what is added before everything else. -/
theorem exists_inOrder_cons (e : Int32 × α) (entries : List (Int32 × α)) :
    ∃ outer inner, inOrder (e :: entries) = outer ++ e :: inner ∧
      inOrder entries = outer ++ inner ∧
      (∀ a ∈ outer, a.1 ≤ e.1) ∧ ∀ a ∈ inner, ¬a.1 ≤ e.1 := by
  obtain ⟨inner, outer, hcons, hsort, hinner⟩ :=
    List.mergeSort_cons priority_le_trans priority_le_total e entries
  have hpair := List.pairwise_mergeSort priority_le_trans priority_le_total (e :: entries)
  rw [hcons, List.pairwise_append, List.pairwise_cons] at hpair
  refine ⟨outer.reverse, inner.reverse, ?_, ?_, fun a ha => ?_, fun a ha => ?_⟩
  · rw [inOrder, hcons, List.reverse_append, List.reverse_cons, List.append_assoc]
    rfl
  · rw [inOrder, hsort, List.reverse_append]
  · exact of_decide_eq_true (hpair.2.1.1 a (List.mem_reverse.1 ha))
  · simpa using hinner a (List.mem_reverse.1 ha)

theorem inOrder_cons (e : Int32 × α) (entries : List (Int32 × α)) :
    inOrder (e :: entries) =
      (inOrder entries).filter (fun a => a.1 ≤ e.1) ++
        e :: (inOrder entries).filter (fun a => ¬a.1 ≤ e.1) := by
  obtain ⟨outer, inner, hcons, hentries, houter, hinner⟩ := exists_inOrder_cons e entries
  have hkept : (outer ++ inner).filter (fun a => a.1 ≤ e.1) = outer := by
    rw [List.filter_append, List.filter_eq_self.2 (by simpa using houter),
      List.filter_eq_nil_iff.2 (by simpa using hinner), List.append_nil]
  have hleft : (outer ++ inner).filter (fun a => ¬a.1 ≤ e.1) = inner := by
    rw [List.filter_append, List.filter_eq_nil_iff.2 (by simpa using houter),
      List.filter_eq_self.2 (by simpa using hinner), List.nil_append]
  rw [hcons, hentries, hkept, hleft]

/-- Only the priorities count. -/
theorem inOrder_map (f : α → β) (entries : List (Int32 × α)) :
    inOrder (entries.map fun e => (e.1, f e.2)) = (inOrder entries).map fun e => (e.1, f e.2) := by
  induction entries with
  | nil => rw [List.map_nil, inOrder_nil, inOrder_nil, List.map_nil]
  | cons e entries ih =>
      rw [List.map_cons, inOrder_cons, inOrder_cons, ih, List.filter_map, List.filter_map,
        List.map_append, List.map_cons]
      rfl

/-- Those that are left keep their order. -/
theorem inOrder_filter (p : Int32 × α → Bool) (entries : List (Int32 × α)) :
    inOrder (entries.filter p) = (inOrder entries).filter p := by
  induction entries with
  | nil => rw [List.filter_nil, inOrder_nil, List.filter_nil]
  | cons e entries ih =>
      cases hp : p e with
      | true =>
          have hcomm (q : Int32 × α → Bool) :
              ((inOrder entries).filter p).filter q = ((inOrder entries).filter q).filter p := by
            rw [List.filter_filter, List.filter_filter]
            simp only [Bool.and_comm]
          rw [List.filter_cons_of_pos hp, inOrder_cons, inOrder_cons, ih, hcomm, hcomm,
            List.filter_append, List.filter_cons_of_pos hp]
      | false =>
          -- the others stand as they do when the entry is not there in the first place
          obtain ⟨outer, inner, hcons, hentries, -, -⟩ := exists_inOrder_cons e entries
          rw [List.filter_cons_of_neg (by simp [hp]), ih, hcons, hentries, List.filter_append,
            List.filter_append, List.filter_cons_of_neg (by simp [hp])]

/-- The order is that of the priorities, and of two entries with the same priority the one added
later comes first. -/
theorem exists_ranking (entries : List (Int32 × α)) :
    ∃ ranking : List ((Int32 × α) × Nat), ranking.Perm entries.zipIdx ∧
      ranking.map (·.1) = inOrder entries ∧ ranking.Pairwise Outside := by
  let le (a b : Int32 × α) : Bool := b.1 ≤ a.1
  have hperm := List.mergeSort_perm entries.zipIdx (List.zipIdxLE le)
  have hpair : (entries.zipIdx.mergeSort (List.zipIdxLE le)).Pairwise
      fun a b => List.zipIdxLE le a b = true :=
    List.pairwise_mergeSort (List.zipIdxLE_trans priority_le_trans)
      (List.zipIdxLE_total priority_le_total) entries.zipIdx
  have hplaces : (entries.zipIdx.mergeSort (List.zipIdxLE le)).Pairwise fun a b => a.2 ≠ b.2 := by
    have hnodup : (entries.zipIdx.map Prod.snd).Nodup := by
      rw [List.zipIdx_map_snd]
      exact List.nodup_range'
    exact List.pairwise_map.1 ((hperm.map Prod.snd).nodup_iff.2 hnodup)
  refine ⟨(entries.zipIdx.mergeSort (List.zipIdxLE le)).reverse,
    (List.reverse_perm _).trans hperm, ?_, ?_⟩
  · rw [List.map_reverse, List.mergeSort_zipIdx]
    rfl
  · rw [List.pairwise_reverse]
    refine (hpair.and hplaces).imp fun {a b} hab => ?_
    obtain ⟨hle, hne⟩ := hab
    have hle : b.1.1 ≤ a.1.1 ∧ (b.1.1 < a.1.1 ∨ a.2 ≤ b.2) := by
      simpa [List.zipIdxLE, le] using hle
    -- the sort is from the inside out, so the places of equal priorities come in their order
    obtain ⟨hle, hlt | hplace⟩ := hle
    · exact .inl hlt
    · by_cases heq : b.1.1 = a.1.1
      · exact .inr ⟨heq, Nat.lt_of_le_of_ne hplace hne⟩
      · exact .inl (Int32.lt_of_le_of_ne hle heq)

end ServiceMesh.Gateway
