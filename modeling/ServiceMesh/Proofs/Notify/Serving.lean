import ServiceMesh.Proofs.Keyed
import ServiceMesh.Proofs.Notify.Bus

/-!
What a watcher has of a notification. Under either policy an open inbox that is served holds one
signal more, up to its capacity, and the other inboxes are as they were; the policies differ only in
whether a full one is waited for. So under `coalesce` a notification that is not interrupted changes
all open inboxes in one go.
-/

namespace ServiceMesh

def Sink.fill (s : Sink) : Sink := { s with queued := min s.capacity (s.queued + 1) }

namespace Bus

variable {b : Bus} {i j : Nat} {s : Sink} {f g : Sink → Sink}

def ids (b : Bus) : List Nat := b.sinks.map (·.id)

def IsOpen (b : Bus) (i : Nat) : Prop := ∃ s ∈ b.sink? i, s.isOpen = true

def IsFull (b : Bus) (i : Nat) : Prop := ∃ s ∈ b.sink? i, s.queued = s.capacity

/-- The watcher has not gone away: the inbox is open, or it is not there yet. -/
def Unclosed (b : Bus) (i : Nat) : Prop := b.IsOpen i ∨ b.nextId ≤ i

instance (b : Bus) (i : Nat) : Decidable (b.IsOpen i) :=
  inferInstanceAs (Decidable (∃ s ∈ b.sink? i, s.isOpen = true))

instance (b : Bus) (i : Nat) : Decidable (b.IsFull i) :=
  inferInstanceAs (Decidable (∃ s ∈ b.sink? i, s.queued = s.capacity))

def fill (b : Bus) (i : Nat) : Bus := b.modify i Sink.fill

/-- What is true of every bus: each inbox has a number of its own, and none holds more than it
can. -/
structure Proper (b : Bus) : Prop where
  numbered : b.Numbered
  nodup : b.ids.Nodup
  within : ∀ s ∈ b.sinks, s.queued ≤ s.capacity

/-! ### Proper buses -/

theorem ids_modify (hf : ∀ s, (f s).id = s.id) (b : Bus) (i : Nat) :
    (b.modify i f).ids = b.ids := by
  rw [ids, modify, List.map_map, ids]
  refine List.map_congr_left fun s _ => ?_
  rw [Function.comp_apply]
  split
  · exact hf s
  · rfl

theorem ids_prune_sublist (b : Bus) : b.prune.ids.Sublist b.ids := List.filter_sublist.map _

theorem ids_addWatcher (b : Bus) (capacity : Nat) :
    (b.addWatcher capacity).1.ids = b.ids ++ [b.nextId] := by
  simp [ids, addWatcher]

theorem ids_drain (b : Bus) (i limit : Nat) : (b.drain i limit).1.ids = b.ids := by
  rw [drain]
  split
  · apply ids_modify
    exact fun _ => rfl
  · rfl

theorem ids_fill (b : Bus) (i : Nat) : (b.fill i).ids = b.ids := by
  apply ids_modify
  exact fun _ => rfl

theorem ids_close (b : Bus) (i : Nat) : (b.close i).ids = b.ids := by
  apply ids_modify
  exact fun _ => rfl

theorem mem_ids_of_isOpen (h : b.IsOpen i) : i ∈ b.ids := by
  obtain ⟨s, hs, -⟩ := h
  exact List.mem_map.2 ⟨s, mem_of_sink? hs, id_of_sink? hs⟩

namespace Proper

theorem new (capacity : Nat) (policy : NotifyPolicy) : (Bus.new capacity policy).Proper where
  numbered := by rintro s ⟨⟩
  nodup := List.nodup_nil
  within := by rintro s ⟨⟩

theorem lt_nextId (h : b.Proper) (hi : i ∈ b.ids) : i < b.nextId := by
  obtain ⟨s, hs, rfl⟩ := List.mem_map.1 hi
  exact h.numbered s hs

theorem sink?_of_mem (h : b.Proper) (hs : s ∈ b.sinks) : b.sink? s.id = some s :=
  (Keyed.find?_eq_some_iff h.nodup).2 ⟨hs, rfl⟩

theorem isOpen_iff (h : b.Proper) (hs : s ∈ b.sinks) : b.IsOpen s.id ↔ s.isOpen = true := by
  simp [IsOpen, h.sink?_of_mem hs]

/-- Only what is done to the inbox itself counts. -/
theorem modify_congr (h : b.Proper) (hs : b.sink? i = some s) (hfg : f s = g s) :
    b.modify i f = b.modify i g := by
  rw [Bus.modify, Bus.modify]
  congr 1
  refine List.map_congr_left fun t ht => ?_
  split
  · next hti =>
      obtain rfl : s = t := Option.some.inj (hs.symm.trans (hti ▸ h.sink?_of_mem ht))
      exact hfg
  · rfl

theorem modify (h : b.Proper) (hid : ∀ s, (f s).id = s.id)
    (hf : ∀ s, s.queued ≤ s.capacity → (f s).queued ≤ (f s).capacity) (i : Nat) :
    (b.modify i f).Proper where
  numbered := h.numbered.modify hid i
  nodup := by
    rw [ids_modify hid]
    exact h.nodup
  within s hs := by
    obtain ⟨t, ht, rfl⟩ := List.mem_map.1 hs
    split
    · exact hf t (h.within t ht)
    · exact h.within t ht

theorem fill (h : b.Proper) (i : Nat) : (b.fill i).Proper := by
  apply h.modify
  · exact fun _ => rfl
  · exact fun _ _ => Nat.min_le_left _ _

theorem prune (h : b.Proper) : b.prune.Proper where
  numbered := h.numbered.prune
  nodup := h.nodup.sublist b.ids_prune_sublist
  within s hs := h.within s (List.mem_filter.1 hs).1

theorem addWatcher (h : b.Proper) (capacity : Nat) : (b.addWatcher capacity).1.Proper where
  numbered := h.numbered.addWatcher capacity
  nodup := by
    rw [ids_addWatcher, List.nodup_append]
    refine ⟨h.nodup, List.nodup_singleton _, fun i hi j hj => ?_⟩
    rw [List.mem_singleton.1 hj]
    exact Nat.ne_of_lt (h.lt_nextId hi)
  within s hs := by
    rcases List.mem_append.1 hs with hs | hs
    · exact h.within s hs
    · obtain rfl := List.mem_singleton.1 hs
      exact Nat.zero_le _

theorem drain (h : b.Proper) (i limit : Nat) : (b.drain i limit).1.Proper := by
  rw [Bus.drain]
  split
  · apply h.modify
    · exact fun _ => rfl
    · exact fun s hs => Nat.le_trans (Nat.sub_le _ _) hs
  · exact h

theorem close (h : b.Proper) (i : Nat) : (b.close i).Proper := by
  apply h.modify
  · exact fun _ => rfl
  · exact fun _ _ => Nat.zero_le _

end Proper

/-! ### One inbox -/

theorem sink?_fill (b : Bus) (i j : Nat) :
    (b.fill i).sink? j = if j = i then (b.sink? j).map Sink.fill else b.sink? j :=
  sink?_modify (f := Sink.fill) (fun _ => rfl) b i j

theorem sink?_close (b : Bus) (i j : Nat) :
    (b.close i).sink? j =
      if j = i then (b.sink? j).map fun s => { s with isOpen := false, queued := 0 }
      else b.sink? j :=
  sink?_modify (f := fun s => { s with isOpen := false, queued := 0 }) (fun _ => rfl) b i j

theorem sink?_drain (b : Bus) (i limit : Nat) :
    (b.drain i limit).1.sink? i =
      (b.sink? i).map fun s => { s with queued := s.queued - (b.drain i limit).2 } := by
  rw [drain]
  cases hs : b.sink? i with
  | none => exact hs
  | some s =>
      dsimp only
      rw [sink?_modify, if_pos rfl, hs]
      exact fun _ => rfl

theorem isOpen_fill : (b.fill i).IsOpen j ↔ b.IsOpen j := by
  rw [IsOpen, IsOpen, sink?_fill]
  split
  · simp [Sink.fill]
  · rfl

theorem isOpen_prune (h : b.Proper) : b.prune.IsOpen i ↔ b.IsOpen i := by
  constructor
  · rintro ⟨s, hs, ho⟩
    have hmem := (List.mem_filter.1 (mem_of_sink? hs)).1
    exact id_of_sink? hs ▸ (h.isOpen_iff hmem).2 ho
  · rintro ⟨s, hs, ho⟩
    exact ⟨s, sink?_prune hs ho, ho⟩

theorem isOpen_addWatcher (h : b.Proper) (capacity : Nat) :
    (b.addWatcher capacity).1.IsOpen i ↔ b.IsOpen i ∨ i = b.nextId := by
  rw [IsOpen, IsOpen, sink?_addWatcher]
  by_cases hi : i = b.nextId
  · subst hi
    simp [h.numbered.sink?_nextId]
  · simp [hi]

theorem isOpen_drain (limit : Nat) : (b.drain j limit).1.IsOpen i ↔ b.IsOpen i := by
  rw [IsOpen, IsOpen]
  by_cases hi : i = j
  · subst hi
    rw [sink?_drain]
    simp
  · rw [sink?_drain_of_ne hi]

theorem isOpen_close : (b.close j).IsOpen i ↔ b.IsOpen i ∧ i ≠ j := by
  rw [IsOpen, IsOpen, sink?_close]
  by_cases hi : i = j <;> simp [hi]

theorem nextId_drain (b : Bus) (i limit : Nat) : (b.drain i limit).1.nextId = b.nextId := by
  rw [drain]
  split <;> rfl

/-! ### How much waits -/

theorem Proper.queued_eq_zero (h : b.Proper) (hi : b.nextId ≤ i) : b.queued i = 0 := by
  have hnone : b.sink? i = none := by
    refine List.find?_eq_none.2 fun s hs => ?_
    have hlt := h.numbered s hs
    simp only [decide_eq_true_eq]
    omega
  rw [queued, hnone]
  rfl

theorem queued_fill_of_ne (h : j ≠ i) : (b.fill i).queued j = b.queued j := by
  refine queued_congr ?_
  rw [sink?_fill, if_neg h]

theorem queued_fill_self (hs : b.sink? i = some s) :
    (b.fill i).queued i = min s.capacity (s.queued + 1) := by
  rw [queued, sink?_fill, if_pos rfl, hs]
  rfl

/-- An inbox that is filled loses nothing, and there is one signal more at most. -/
theorem queued_fill_bounds (h : b.Proper) (ho : b.IsOpen i) (j : Nat) :
    b.queued j ≤ (b.fill i).queued j ∧
      (b.fill i).queued j ≤ b.queued j + if j = i then 1 else 0 := by
  by_cases hj : j = i
  · subst hj
    obtain ⟨s, hs, -⟩ := ho
    have hle := h.within s (mem_of_sink? hs)
    rw [queued_fill_self hs, queued_of_sink? hs, if_pos rfl]
    omega
  · rw [queued_fill_of_ne hj, if_neg hj]
    exact ⟨Nat.le_refl _, Nat.le_refl _⟩

theorem queued_fill_of_room (h : b.Proper) (ho : b.IsOpen i) (hf : ¬b.IsFull i) :
    (b.fill i).queued i = b.queued i + 1 := by
  obtain ⟨s, hs, -⟩ := ho
  have hle := h.within s (mem_of_sink? hs)
  have hne : s.queued ≠ s.capacity := fun he => hf ⟨s, hs, he⟩
  rw [queued_fill_self hs, queued_of_sink? hs]
  omega

theorem queued_prune (h : b.Proper) (i : Nat) :
    b.prune.queued i = if b.IsOpen i then b.queued i else 0 := by
  split
  · next ho =>
      obtain ⟨s, hs, ho⟩ := ho
      rw [queued_of_sink? hs, queued_of_sink? (sink?_prune hs ho)]
  · next hno =>
      cases hs : b.prune.sink? i with
      | none => rw [queued, hs]; rfl
      | some s =>
          have ho : s.isOpen = true := (List.mem_filter.1 (mem_of_sink? hs)).2
          exact absurd ((isOpen_prune h).1 ⟨s, hs, ho⟩) hno

theorem queued_addWatcher (h : b.Proper) (capacity i : Nat) :
    (b.addWatcher capacity).1.queued i = b.queued i := by
  by_cases hi : i = b.nextId
  · rw [h.queued_eq_zero (Nat.le_of_eq hi.symm), queued, sink?_addWatcher, if_pos hi, hi,
      h.numbered.sink?_nextId]
    rfl
  · refine queued_congr ?_
    rw [sink?_addWatcher, if_neg hi, Option.or_none]

/-- To fill an inbox that has no room changes nothing. -/
theorem fill_of_isFull (h : b.Proper) (hf : b.IsFull i) : b.fill i = b := by
  obtain ⟨s, hs, hq⟩ := hf
  have hmin : min s.capacity (s.queued + 1) = s.queued := by omega
  have hfill : s.fill = id s := by
    rw [Sink.fill, hmin]
    rfl
  rw [fill, h.modify_congr hs hfill, modify]
  simp

/-- What is taken out of an inbox was in it. -/
theorem drained_add_queued (b : Bus) (i limit : Nat) :
    (b.drain i limit).2 + (b.drain i limit).1.queued i = b.queued i := by
  have hle : (b.drain i limit).2 ≤ b.queued i := by
    rw [drain, queued]
    cases b.sink? i with
    | none => exact Nat.le_refl _
    | some s =>
        change (if s.isOpen = true then min s.queued limit else 0) ≤ s.queued
        split
        · exact Nat.min_le_left _ _
        · exact Nat.zero_le _
  have hq : (b.drain i limit).1.queued i = b.queued i - (b.drain i limit).2 := by
    rw [queued, sink?_drain, queued]
    cases b.sink? i with
    | none => exact (Nat.zero_sub _).symm
    | some s => rfl
  rw [hq, Nat.add_sub_cancel' hle]

/-! ### Serving -/

/-- What serving the next watcher comes to, under either policy. -/
theorem serve_cons (h : b.Proper) (i : Nat) (rest : List Nat) (met : Bool) :
    b.serve ⟨i :: rest, met⟩ =
      if b.IsOpen i then
        if b.policy = .block ∧ b.IsFull i then none else some (b.fill i, some ⟨rest, met⟩)
      else some (b, some ⟨rest, true⟩) := by
  rw [serve]
  dsimp only
  cases hs : b.sink? i with
  | none => simp [IsOpen, hs]
  | some s =>
      have hle := h.within s (mem_of_sink? hs)
      have hfull : b.IsFull i ↔ s.queued = s.capacity := by simp [IsFull, hs]
      have hopen : b.IsOpen i ↔ s.isOpen = true := by simp [IsOpen, hs]
      dsimp only
      by_cases ho : s.isOpen = true
      · rw [if_neg (not_not.2 ho), if_pos (hopen.2 ho)]
        by_cases hq : s.queued < s.capacity
        · have hroom : { s with queued := s.queued + 1 } = s.fill := by
            rw [Sink.fill, Nat.min_eq_right hq]
          rw [if_pos hq, if_neg fun hb => Nat.ne_of_lt hq (hfull.1 hb.2), fill,
            h.modify_congr hs hroom]
        · have hf : b.IsFull i := hfull.2 (by omega)
          rw [if_neg hq, fill_of_isFull h hf]
          cases b.policy <;> simp [hf]
      · rw [if_pos ho, if_neg fun hb => ho (hopen.1 hb)]

theorem advance_cons (h : b.Proper) (i : Nat) (rest : List Nat) (met : Bool) :
    b.advance ⟨i :: rest, met⟩ =
      if b.IsOpen i then
        if b.policy = .block ∧ b.IsFull i then (b, some ⟨i :: rest, met⟩)
        else (b.fill i).advance ⟨rest, met⟩
      else b.advance ⟨rest, true⟩ := by
  rw [advance_eq, serve_cons h]
  by_cases ho : b.IsOpen i
  · by_cases hw : b.policy = .block ∧ b.IsFull i
    · simp only [if_pos ho, if_pos hw]
    · simp only [if_pos ho, if_neg hw]
  · simp only [if_neg ho]

/-! ### A notification that is not interrupted -/

/-- One signal more for each of these inboxes that is open and has room. -/
def fillAll (b : Bus) (rest : List Nat) : Bus :=
  { b with sinks := b.sinks.map fun s => if s.isOpen = true ∧ s.id ∈ rest then s.fill else s }

theorem fillAll_nil (b : Bus) : b.fillAll [] = b := by
  simp [fillAll]

theorem fillAll_fill (h : b.Proper) (ho : b.IsOpen i) {rest : List Nat} (hi : i ∉ rest) :
    (b.fill i).fillAll rest = b.fillAll (i :: rest) := by
  rw [fillAll, fillAll, fill, modify, List.map_map]
  congr 1
  refine List.map_congr_left fun s hs => ?_
  rw [Function.comp_apply]
  by_cases hid : s.id = i
  · have hso : s.isOpen = true := (h.isOpen_iff hs).1 (hid.symm ▸ ho)
    subst hid
    rw [if_pos rfl, if_neg fun hf => hi hf.2, if_pos ⟨hso, List.mem_cons_self⟩]
  · simp [hid]

theorem fillAll_cons_of_not_isOpen (h : b.Proper) (ho : ¬b.IsOpen i) (rest : List Nat) :
    b.fillAll (i :: rest) = b.fillAll rest := by
  rw [fillAll, fillAll]
  congr 1
  refine List.map_congr_left fun s hs => ?_
  by_cases hid : s.id = i
  · have hso : ¬s.isOpen = true := fun hso => ho (hid ▸ (h.isOpen_iff hs).2 hso)
    rw [if_neg fun hf => hso hf.1, if_neg fun hf => hso hf.1]
  · simp [hid]

/-- Under `coalesce` nothing is waited for. -/
theorem advance_of_coalesce (h : b.Proper) (hp : b.policy = .coalesce) {rest : List Nat}
    (hnodup : rest.Nodup) (met : Bool) :
    b.advance ⟨rest, met⟩ =
      (if met = true ∨ ∃ i ∈ rest, ¬b.IsOpen i then (b.fillAll rest).prune else b.fillAll rest,
        none) := by
  induction rest generalizing b met with
  | nil => simp [advance_eq, serve, fillAll_nil]
  | cons i rest ih =>
      obtain ⟨hi, hnodup⟩ := List.nodup_cons.1 hnodup
      have hwait : ¬(b.policy = .block ∧ b.IsFull i) := by simp [hp]
      rw [advance_cons h, if_neg hwait]
      by_cases ho : b.IsOpen i
      · rw [if_pos ho, ih (h.fill i) hp hnodup, fillAll_fill h ho hi]
        simp [isOpen_fill, ho]
      · rw [if_neg ho, ih h hp hnodup, fillAll_cons_of_not_isOpen h ho]
        simp [ho]

theorem prune_fillAll_ids (b : Bus) :
    (b.fillAll b.ids).prune = { b with sinks := (b.sinks.filter (·.isOpen)).map Sink.fill } := by
  rw [prune, fillAll]
  congr 1
  have hopen : ((·.isOpen) : Sink → Bool) ∘
      (fun s => if s.isOpen = true ∧ s.id ∈ b.ids then s.fill else s) = (·.isOpen) := by
    funext s
    rw [Function.comp_apply]
    split <;> rfl
  rw [List.filter_map, hopen]
  refine List.map_congr_left fun s hs => ?_
  obtain ⟨hs, ho⟩ := List.mem_filter.1 hs
  rw [if_pos ⟨ho, List.mem_map_of_mem hs⟩]

/-- All at once: everyone who is there has one signal more, or as many as the inbox can hold, and
nobody else is left. -/
theorem advance_announce_of_coalesce (h : b.Proper) (hp : b.policy = .coalesce) :
    b.advance b.announce =
      ({ b with sinks := (b.sinks.filter (·.isOpen)).map Sink.fill }, none) := by
  change b.advance ⟨b.ids, false⟩ = _
  rw [advance_of_coalesce h hp h.nodup, ← prune_fillAll_ids]
  split
  · rfl
  · next hall =>
      -- with everyone there, there is nobody to take off the bus
      suffices hself : (b.fillAll b.ids).sinks.filter (·.isOpen) = (b.fillAll b.ids).sinks by
        rw [prune, hself]
      refine List.filter_eq_self.2 fun t ht => ?_
      obtain ⟨s, hs, rfl⟩ := List.mem_map.1 ht
      have ho : s.isOpen = true := by
        refine (h.isOpen_iff hs).1 (not_not.1 fun hno => hall (.inr ?_))
        exact ⟨s.id, List.mem_map_of_mem hs, hno⟩
      split
      · exact ho
      · exact ho

/-- One inbox is full, one was full when its watcher went away, and one has room. -/
example :
    let b : Bus := ⟨1, .coalesce, [⟨0, 1, 1, true⟩, ⟨1, 2, 2, false⟩, ⟨2, 2, 0, true⟩], 3⟩
    b.advance b.announce = ({ b with sinks := [⟨0, 1, 1, true⟩, ⟨2, 2, 1, true⟩] }, none) := by
  decide

end Bus

end ServiceMesh
