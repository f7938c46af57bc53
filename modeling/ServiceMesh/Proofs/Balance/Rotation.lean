import Mathlib.Algebra.BigOperators.Group.Finset.Piecewise
import Mathlib.Algebra.Order.BigOperators.Group.Finset
import Mathlib.Data.List.Rotate
import ServiceMesh.Balance.Handles
import ServiceMesh.Proofs.Balance.Upkeep

/-!
One list and one counter. The picks that all clones of a round robin make from a list go round and
round in it. Only where the counter wraps they may leave their order, so over a run that takes no
value of the counter twice no item is ahead of another by more than one, or by two across the wrap.
-/

namespace ServiceMesh

namespace RoundRobin

variable {n k : Nat} {c : UInt64} {turns : List Nat}

/-! ### The values of a counter -/

def values (c : UInt64) (k : Nat) : List Nat :=
  (List.range k).map fun i => (c.toNat + i) % UInt64.size

@[simp] theorem length_values (c : UInt64) (k : Nat) : (values c k).length = k := by
  simp [values]

theorem getElem?_values {i : Nat} (h : i < k) (c : UInt64) :
    (values c k)[i]? = some ((c.toNat + i) % UInt64.size) := by
  simp [values, h]

theorem values_succ (c : UInt64) (k : Nat) : values c (k + 1) = c.toNat :: values (c + 1) k := by
  rw [values, List.range_succ_eq_map, List.map_cons, List.map_map, Nat.add_zero,
    Nat.mod_eq_of_lt c.toNat_lt, values]
  congr 1
  exact List.map_congr_left fun i _ => (Balancer.succ_add_mod c i).symm

theorem disturbances_values (n : Nat) (c : UInt64) (k : Nat) :
    disturbances n (values c (k + 2)) =
      (if (c + 1).toNat % n = (c.toNat + 1) % n then 0 else 1) +
        disturbances n (values (c + 1) (k + 1)) := by
  rw [values_succ, values_succ, disturbances_cons_cons]

/-- As long as it does not wrap the counter is never out of order. -/
theorem disturbances_values_of_le (h : c.toNat + k ≤ UInt64.size) :
    disturbances n (values c k) = 0 := by
  induction k generalizing c with
  | zero => rfl
  | succ k ih =>
      cases k with
      | zero => rfl
      | succ k =>
          have hnext := toNat_succ (k := c) (by omega)
          rw [disturbances_values, ih (by omega), hnext, if_pos rfl]

/-- The wrap is the only place where it may be, and there is one at most. -/
theorem disturbances_values_le_one (h : k ≤ UInt64.size) : disturbances n (values c k) ≤ 1 := by
  induction k generalizing c with
  | zero => exact Nat.zero_le 1
  | succ k ih =>
      cases k with
      | zero => exact Nat.zero_le 1
      | succ k =>
          rw [disturbances_values]
          by_cases hwrap : c.toNat + 1 < UInt64.size
          · rw [toNat_succ hwrap, if_pos rfl, Nat.zero_add]
            exact ih (by omega)
          · -- the values behind the wrap are not enough for another one
            have hzero : (c + 1).toNat = 0 := by
              have hsize : UInt64.size = 2 ^ 64 := rfl
              have hlt := c.toNat_lt
              rw [UInt64.toNat_add]
              change (c.toNat + 1) % 2 ^ 64 = 0
              omega
            rw [disturbances_values_of_le (by omega)]
            split <;> omega

/-! ### How often a place is picked -/

theorem sum_picked (hn : 0 < n) (turns : List Nat) :
    ∑ j ∈ Finset.range n, picked n turns j = turns.length := by
  induction turns with
  | nil => simp [picked]
  | cons k turns ih =>
      have hk : k % n ∈ Finset.range n := Finset.mem_range.2 (Nat.mod_lt k hn)
      simp only [picked_cons, Finset.sum_add_distrib, ih, Finset.sum_ite_eq, if_pos hk,
        List.length_cons, Nat.add_comm]

/-- If no place is picked more often than another by more than one, each has its share, rounded one
way or the other. -/
theorem picked_eq_share
    (h : ∀ i < n, ∀ j < n, picked n turns i ≤ picked n turns j + 1) {j : Nat} (hj : j < n) :
    picked n turns j = turns.length / n ∨ picked n turns j = (turns.length + (n - 1)) / n := by
  have hn : 0 < n := Nat.zero_lt_of_lt hj
  have hsum := sum_picked hn turns
  have hmem := Finset.mem_range.2 hj
  have hcard (m : Nat) : ∑ _i ∈ Finset.range n, m = n * m := by simp
  -- the others have at most one more, and at least one less
  have hupper : turns.length < n * (picked n turns j + 1) := by
    rw [← hsum, ← hcard]
    exact Finset.sum_lt_sum (fun i hi => h i (Finset.mem_range.1 hi) j hj)
      ⟨j, hmem, Nat.lt_succ_self _⟩
  have hlower : n * picked n turns j < turns.length + n := by
    calc
      n * picked n turns j = ∑ _i ∈ Finset.range n, picked n turns j := (hcard _).symm
      _ < ∑ i ∈ Finset.range n, (picked n turns i + 1) :=
        Finset.sum_lt_sum (fun i hi => h j hj i (Finset.mem_range.1 hi))
          ⟨j, hmem, Nat.lt_succ_self _⟩
      _ = turns.length + n := by rw [Finset.sum_add_distrib, hsum, hcard, Nat.mul_one]
  have hfloor : turns.length / n ≤ picked n turns j :=
    Nat.le_of_lt_succ ((Nat.div_lt_iff_lt_mul hn).2 (Nat.mul_comm n _ ▸ hupper))
  have hceil : picked n turns j ≤ (turns.length + (n - 1)) / n :=
    (Nat.le_div_iff_mul_le hn).2 (by rw [Nat.mul_comm]; omega)
  have hround : (turns.length + (n - 1)) / n ≤ turns.length / n + 1 := by
    rw [← Nat.add_div_right _ hn]
    exact Nat.div_le_div_right (by omega)
  omega

/-- Values of a counter in a row go through a list from one place on, and begin again at its end. -/
theorem map_getElem?_eq_rotate {α : Type} (items : List α) (m : Nat) :
    ((List.range items.length).map fun i => items[(m + i) % items.length]?) =
      (items.rotate m).map some := by
  refine List.ext_getElem? fun i => ?_
  by_cases hi : i < items.length
  · have hi' : i < (items.rotate m).length := by rwa [List.length_rotate]
    rw [List.getElem?_map, List.getElem?_map, List.getElem?_range hi, List.getElem?_rotate hi,
      Nat.add_comm i m]
    have hlt : (m + i) % items.length < items.length := Nat.mod_lt _ (Nat.zero_lt_of_lt hi)
    simp [List.getElem?_eq_getElem hlt]
  · simp [hi]

/-- Before the counter wraps, a round of picks is the list from one place on. -/
theorem take_drop_map_values {α : Type} (items : List α) {m : Nat}
    (hwrap : c.toNat + k ≤ UInt64.size) (hm : m + items.length ≤ k) :
    (((values c k).map fun v => items[v % items.length]?).drop m).take items.length =
      (items.rotate (c.toNat + m)).map some := by
  rw [← map_getElem?_eq_rotate]
  refine List.ext_getElem? fun i => ?_
  by_cases hi : i < items.length
  · have hlt : c.toNat + (m + i) < UInt64.size := by omega
    rw [List.getElem?_take_of_lt hi, List.getElem?_drop, List.getElem?_map,
      getElem?_values (by omega), Nat.mod_eq_of_lt hlt, List.getElem?_map, List.getElem?_range hi,
      Option.map_some, Option.map_some, Nat.add_assoc]
  · simp [hi]

/-- A run of picks from a list, for a counter that was `c` at its beginning. The `i`-th pick is that
of the value which comes `i` after `c`. Unless the counter wraps, every place of the list has its
share of the picks, rounded down or up, and a round of picks is a round through the list; across a
wrap no place is ahead of another by more than two. If no item stands in two places, an item is
found as often as its place is picked. -/
structure Rotates {α : Type} [DecidableEq α] (c : UInt64) (items : List α)
    (found : List (Option α)) : Prop where
  getElem? : ∀ i < found.length, ∃ a,
    items[(c.toNat + i) % UInt64.size % items.length]? = some a ∧ found[i]? = some (some a)
  share : c.toNat + found.length ≤ UInt64.size → ∀ j < items.length,
    picked items.length (values c found.length) j = found.length / items.length ∨
      picked items.length (values c found.length) j =
        (found.length + (items.length - 1)) / items.length
  round : c.toNat + found.length ≤ UInt64.size → ∀ m, m + items.length ≤ found.length →
    ((found.drop m).take items.length).Perm (items.map some)
  wrapped : found.length ≤ UInt64.size → ∀ i < items.length, ∀ j < items.length,
    picked items.length (values c found.length) i ≤
      picked items.length (values c found.length) j + 2
  count : items.Nodup → ∀ j a, items[j]? = some a →
    found.count (some a) = picked items.length (values c found.length) j

theorem rotates_map_values {α : Type} [DecidableEq α] {items : List α} (hitems : items ≠ [])
    (c : UInt64) (k : Nat) :
    Rotates c items ((values c k).map fun v => items[v % items.length]?) := by
  have hn : 0 < items.length := List.length_pos_iff.2 hitems
  have hlength : ((values c k).map fun v => items[v % items.length]?).length = k := by simp
  constructor <;> rw [hlength]
  case getElem? =>
    intro i hi
    have hlt : (c.toNat + i) % UInt64.size % items.length < items.length := Nat.mod_lt _ hn
    refine ⟨_, List.getElem?_eq_getElem hlt, ?_⟩
    rw [List.getElem?_map, getElem?_values hi, Option.map_some, List.getElem?_eq_getElem hlt]
  case share =>
    intro hwrap j hj
    have heven (i : Nat) (hi : i < items.length) (j : Nat) (hj : j < items.length) :
        picked items.length (values c k) i ≤ picked items.length (values c k) j + 1 := by
      have hle := picked_le hi hj (values c k)
      rwa [disturbances_values_of_le hwrap] at hle
    have hshare := picked_eq_share heven hj
    rwa [length_values] at hshare
  case round =>
    intro hwrap m hm
    rw [take_drop_map_values items hwrap hm]
    exact (List.rotate_perm items _).map some
  case wrapped =>
    intro hk i hi j hj
    have hle := picked_le hi hj (values c k)
    have hone : disturbances items.length (values c k) ≤ 1 := disturbances_values_le_one hk
    omega
  case count =>
    intro hnodup j a ha
    rw [List.count, List.countP_map, picked]
    refine List.countP_congr fun v _ => ?_
    have hlt : v % items.length < items.length := Nat.mod_lt _ hn
    simp only [Function.comp_apply, beq_iff_eq, decide_eq_true_eq]
    exact ⟨fun h => (List.getElem?_inj hlt hnodup).1 (h.trans ha.symm), fun h => h ▸ ha⟩

end RoundRobin

namespace Handles

variable {α : Type} {i : Nat} {clones : List Nat} {t : Handles} {r : RoundRobin}
  {acts : List (Act α)} {items : List α}

/-! ### Picks through clones -/

def through (t : Handles) (clones : List Nat) : Act α → List (List α × Option α)
  | .pick handle items =>
    if handle ∈ clones then [(items, (t.act (.pick handle items)).2)] else []
  | _ => []

def clonesAfter (t : Handles) (clones : List Nat) : Act α → List Nat
  | .clone handle => if handle ∈ clones then clones ++ [t.sources.length] else clones
  | _ => clones

/-- All that is picked through some handles, their clones and the clones of these: from which list,
and what. -/
def drawn : List Nat → Handles → List (Act α) → List (List α × Option α)
  | _, _, [] => []
  | clones, t, a :: acts =>
    t.through clones a ++ drawn (t.clonesAfter clones a) (t.act a).1 acts

structure Shares (t : Handles) (clones : List Nat) (i : Nat) (r : RoundRobin) : Prop where
  mem_iff : ∀ handle, handle ∈ clones ↔ t.sources[handle]? = some i
  counter : t.counters[i]? = some r

theorem getElem?_concat_eq_some_iff {β : Type} {xs : List β} {a b : β} {n : Nat} :
    (xs ++ [b])[n]? = some a ↔ xs[n]? = some a ∨ (n = xs.length ∧ b = a) := by
  rcases Nat.lt_trichotomy n xs.length with hlt | rfl | hgt
  · rw [List.getElem?_append_left hlt]
    simp [Nat.ne_of_lt hlt]
  · simp
  · have hnone : xs[n]? = none := List.getElem?_eq_none (Nat.le_of_lt hgt)
    have hnone' : (xs ++ [b])[n]? = none :=
      List.getElem?_eq_none (by rw [List.length_append, List.length_singleton]; omega)
    simp [hnone, hnone', Nat.ne_of_gt hgt]

theorem shares_start (t : Handles) (c : UInt64) :
    (t.start c).Shares [t.sources.length] t.counters.length ⟨c⟩ where
  mem_iff handle := by
    -- the counter is new, so no handle draws from it yet
    have hnew : t.sources[handle]? ≠ some t.counters.length := fun h =>
      Nat.lt_irrefl _ (t.sources_lt _ (List.mem_of_getElem? h))
    simp only [start_sources, List.mem_singleton, getElem?_concat_eq_some_iff, hnew, false_or,
      and_true]
  counter := by simp [start]

namespace Shares

theorem lt_length (h : t.Shares clones i r) : i < t.counters.length :=
  (List.getElem?_eq_some_iff.1 h.counter).1

theorem start (h : t.Shares clones i r) (c : UInt64) : (t.start c).Shares clones i r where
  mem_iff handle := by
    have hne : t.counters.length ≠ i := Nat.ne_of_gt h.lt_length
    simp only [start_sources, getElem?_concat_eq_some_iff, hne, and_false, or_false, h.mem_iff]
  counter := by rw [start_counters, List.getElem?_append_left h.lt_length, h.counter]

theorem clone (h : t.Shares clones i r) (handle : Nat) :
    (t.clone handle).Shares (t.clonesAfter clones (.clone handle : Act α)) i r where
  mem_iff other := by
    rw [clonesAfter, clone_sources]
    split
    · next hmem =>
        rw [(h.mem_iff handle).1 hmem, Option.toList_some, getElem?_concat_eq_some_iff,
          List.mem_append, List.mem_singleton, h.mem_iff]
        simp
    · next hmem =>
        cases hsource : t.sources[handle]? with
        | none => rw [Option.toList_none, List.append_nil, h.mem_iff]
        | some j =>
            have hj : j ≠ i := fun hj => hmem ((h.mem_iff handle).2 (hj ▸ hsource))
            simp only [Option.toList_some, getElem?_concat_eq_some_iff, hj, and_false, or_false,
              h.mem_iff]
  counter := h.counter

theorem moveOn (h : t.Shares clones i r) (items : List α) :
    (t.moveOn i items).Shares clones i (r.pick items).1 where
  mem_iff := h.mem_iff
  counter := by
    rw [moveOn_counters, List.getElem?_modify_eq, h.counter, Option.map_eq_map, Option.map_some]

theorem moveOn_of_ne (h : t.Shares clones i r) {j : Nat} (hj : j ≠ i) (items : List α) :
    (t.moveOn j items).Shares clones i r where
  mem_iff := h.mem_iff
  counter := by
    rw [moveOn_counters, List.getElem?_modify_ne _ _ hj, h.counter]

/-- An act either is a pick through a clone, which is given the item whose turn it is and moves the
counter on, or it leaves the counter alone. -/
theorem act (h : t.Shares clones i r) (a : Act α) :
    (t.through clones a = [] ∧ (t.act a).1.Shares (t.clonesAfter clones a) i r) ∨
      ∃ items, t.through clones a = [(items, (r.pick items).2)] ∧
        (t.act a).1.Shares (t.clonesAfter clones a) i (r.pick items).1 := by
  cases a with
  | start c => exact .inl ⟨rfl, h.start c⟩
  | clone handle => exact .inl ⟨rfl, h.clone handle⟩
  | pick handle items =>
      by_cases hmem : handle ∈ clones
      · have hact : t.act (.pick handle items) = (t.moveOn i items, (r.pick items).2) := by
          rw [Handles.act, (h.mem_iff handle).1 hmem]
          simp only [h.counter, Option.bind_some]
        rw [through, if_pos hmem, hact]
        exact .inr ⟨items, rfl, h.moveOn items⟩
      · rw [through, if_neg hmem, Handles.act]
        cases hsource : t.sources[handle]? with
        | none => exact .inl ⟨rfl, h⟩
        | some j =>
            have hj : j ≠ i := fun hj => hmem ((h.mem_iff handle).2 (hj ▸ hsource))
            exact .inl ⟨rfl, h.moveOn_of_ne hj items⟩

/-- Over a run the clones go through the values of their counter, whatever others do meanwhile. -/
theorem map_snd_drawn (h : t.Shares clones i r) (hitems : items ≠ [])
    (honly : ∀ p ∈ drawn clones t acts, p.1 = items) :
    (drawn clones t acts).map (·.2) =
      (RoundRobin.values r.counter (drawn clones t acts).length).map
        fun v => items[v % items.length]? := by
  induction acts generalizing t clones r with
  | nil => rfl
  | cons a acts ih =>
      rw [drawn] at honly ⊢
      rcases h.act a with ⟨hnone, hnext⟩ | ⟨from', hone, hnext⟩
      · rw [hnone, List.nil_append] at honly ⊢
        exact ih hnext honly
      · rw [hone, List.singleton_append, List.forall_mem_cons] at honly
        obtain ⟨rfl, hrest⟩ := honly
        rw [RoundRobin.pick_of_ne_nil hitems] at hnext hone
        rw [hone, List.singleton_append, List.map_cons, ih hnext hrest, List.length_cons,
          RoundRobin.values_succ, List.map_cons]

end Shares

/-- An empty list has no turn to take, whoever asks. -/
theorem act_pick_nil (t : Handles) (handle : Nat) :
    t.act (.pick handle ([] : List α)) = (t, none) := by
  have hsame (i : Nat) : t.moveOn i ([] : List α) = t := by
    have hid : (fun r : RoundRobin => (r.pick ([] : List α)).1) = id := rfl
    rw [moveOn]
    congr 1
    rw [hid, List.modify_id]
  rw [act]
  cases t.sources[handle]? with
  | none => rfl
  | some i =>
      have hnone : (t.counters[i]?.bind fun r => (r.pick ([] : List α)).2) = none := by
        cases t.counters[i]? <;> rfl
      simp only [hsame, hnone]

/-- A round robin that starts at `c`, among others: what all its clones pick from a list rotates in
it. Picks from an empty list take no turn. -/
theorem drawn_rotates [DecidableEq α] (t : Handles) (c : UInt64) (hitems : items ≠ [])
    (honly : ∀ p ∈ drawn [t.sources.length] (t.start c) acts, p.1 = items) :
    RoundRobin.Rotates c items ((drawn [t.sources.length] (t.start c) acts).map (·.2)) ∧
      ∀ (t' : Handles) (handle : Nat), t'.act (.pick handle ([] : List α)) = (t', none) := by
  refine ⟨?_, act_pick_nil⟩
  rw [(t.shares_start c).map_snd_drawn hitems honly]
  exact RoundRobin.rotates_map_values hitems c _

/-- Two clones at the end of the counter, and another round robin between their picks: across the
wrap the first item is found twice before the second one is found at all. -/
theorem drawn_rotates_wrapping :
    let acts : List (Act String) := [.clone 1, .pick 1 ["a", "b", "c"], .pick 0 ["a", "b", "c"],
      .pick 2 ["a", "b", "c"]]
    let found := (drawn [1] ((empty.start 7).start 18446744073709551615) acts).map (·.2)
    found = [some "a", some "a"] ∧
      RoundRobin.Rotates 18446744073709551615 ["a", "b", "c"] found := by
  refine ⟨by decide +kernel, ?_⟩
  exact (drawn_rotates (empty.start 7) 18446744073709551615 (by decide) (by decide +kernel)).1

end Handles

end ServiceMesh
