import ServiceMesh.Notify.Bus

/-!
One watcher at a time. A notification serves the watchers one after the other and stops at a full
inbox under `block`, so between two of its watchers anything else may happen. `serve` is such a
single step, and `advance` is as many of them as can be taken in a row.
-/

namespace ServiceMesh.Bus

variable {b b' : Bus} {n : Notification} {n' : Option Notification} {id i : Nat} {s : Sink}

/-! ### Inboxes -/

def queued (b : Bus) (id : Nat) : Nat := ((b.sink? id).map (·.queued)).getD 0

/-- The inbox is on the bus, open, and has room for a signal when it is empty. -/
def IsRead (b : Bus) (id : Nat) : Prop := ∃ s, b.sink? id = some s ∧ s.isOpen ∧ 0 < s.capacity

def Numbered (b : Bus) : Prop := ∀ s ∈ b.sinks, s.id < b.nextId

theorem id_of_sink? (h : b.sink? id = some s) : s.id = id := by simpa using List.find?_some h

theorem mem_of_sink? (h : b.sink? id = some s) : s ∈ b.sinks := List.mem_of_find?_eq_some h

theorem queued_of_sink? (h : b.sink? id = some s) : b.queued id = s.queued := by
  rw [queued, h]
  rfl

theorem queued_congr (h : b'.sink? i = b.sink? i) : b'.queued i = b.queued i := by
  rw [queued, queued, h]

theorem IsRead.congr (hr : b.IsRead i) (h : b'.sink? i = b.sink? i) : b'.IsRead i := by
  rw [IsRead, h]
  exact hr

theorem sink?_modify {f : Sink → Sink} (hf : ∀ s, (f s).id = s.id) (b : Bus) (id i : Nat) :
    (b.modify id f).sink? i = if i = id then (b.sink? i).map f else b.sink? i := by
  have hid (s : Sink) : (if s.id = id then f s else s).id = s.id := by
    split
    · exact hf s
    · rfl
  rw [sink?, modify, List.find?_map]
  simp only [Function.comp_def, hid]
  change (b.sink? i).map _ = _
  cases hs : b.sink? i with
  | none => simp
  | some s => by_cases hi : i = id <;> simp [id_of_sink? hs, hi]

theorem sink?_addWatcher (b : Bus) (capacity i : Nat) :
    (b.addWatcher capacity).1.sink? i =
      (b.sink? i).or (if i = b.nextId then some ⟨b.nextId, capacity, 0, true⟩ else none) := by
  rw [sink?, addWatcher, List.find?_append, ← sink?]
  congr 1
  by_cases h : i = b.nextId
  · simp [h]
  · simp [h, Ne.symm h]

/-- An open inbox stays on the bus when the closed ones are taken off. -/
theorem sink?_prune (h : b.sink? i = some s) (ho : s.isOpen = true) : b.prune.sink? i = some s := by
  obtain ⟨-, before, after, heq, hno⟩ := List.find?_eq_some_iff_append.1 h
  rw [sink?, prune, List.find?_filter, List.find?_eq_some_iff_append]
  refine ⟨by simp [ho, id_of_sink? h], before, after, heq, fun t ht => ?_⟩
  have hnt := hno t ht
  simp only [Bool.not_eq_true', decide_eq_false_iff_not] at hnt
  simp [hnt]

theorem sink?_drain_of_ne (h : i ≠ id) (b : Bus) (limit : Nat) :
    (b.drain id limit).1.sink? i = b.sink? i := by
  rw [drain]
  split
  · dsimp only
    rw [sink?_modify, if_neg h]
    exact fun _ => rfl
  · rfl

theorem sink?_close_of_ne (h : i ≠ id) (b : Bus) : (b.close id).sink? i = b.sink? i := by
  rw [close, sink?_modify, if_neg h]
  exact fun _ => rfl

theorem IsRead.sink?_addWatcher (h : b.IsRead i) (capacity : Nat) :
    (b.addWatcher capacity).1.sink? i = b.sink? i := by
  obtain ⟨s, hs, -⟩ := h
  rw [Bus.sink?_addWatcher, hs]
  rfl

theorem IsRead.drain (h : b.IsRead id) (limit : Nat) : (b.drain id limit).1.IsRead id := by
  obtain ⟨s, hs, ho, hc⟩ := h
  rw [Bus.drain, hs]
  dsimp only
  rw [IsRead, sink?_modify, if_pos rfl, hs]
  · exact ⟨_, rfl, ho, hc⟩
  · exact fun _ => rfl

namespace Numbered

theorem sink?_nextId (h : b.Numbered) : b.sink? b.nextId = none := by
  rw [sink?, List.find?_eq_none]
  intro s hs
  have hlt := h s hs
  simp only [decide_eq_true_eq]
  omega

theorem isRead_addWatcher (h : b.Numbered) {capacity : Nat} (hc : 0 < capacity) :
    (b.addWatcher capacity).1.IsRead b.nextId := by
  rw [IsRead, Bus.sink?_addWatcher, h.sink?_nextId, if_pos rfl]
  exact ⟨_, rfl, rfl, hc⟩

theorem modify (h : b.Numbered) {f : Sink → Sink} (hf : ∀ s, (f s).id = s.id) (id : Nat) :
    (b.modify id f).Numbered := by
  intro s hs
  obtain ⟨t, ht, rfl⟩ := List.mem_map.1 hs
  split
  · rw [hf]
    exact h t ht
  · exact h t ht

theorem prune (h : b.Numbered) : b.prune.Numbered := fun s hs => h s (List.mem_filter.1 hs).1

theorem addWatcher (h : b.Numbered) (capacity : Nat) : (b.addWatcher capacity).1.Numbered := by
  intro s hs
  rcases List.mem_append.1 hs with hs | hs
  · exact Nat.lt_succ_of_lt (h s hs)
  · obtain rfl := List.mem_singleton.1 hs
    exact Nat.lt_succ_self _

theorem drain (h : b.Numbered) (id limit : Nat) : (b.drain id limit).1.Numbered := by
  rw [Bus.drain]
  split
  · apply h.modify
    exact fun _ => rfl
  · exact h

theorem close (h : b.Numbered) (id : Nat) : (b.close id).Numbered := by
  apply h.modify
  exact fun _ => rfl

end Numbered

/-! ### Notifications -/

/-- Serves the next watcher of a notification, or completes it if there is none. Nothing happens
while a full inbox has to be waited for. -/
def serve (b : Bus) (n : Notification) : Option (Bus × Option Notification) :=
  match n.rest with
  | [] => some (if n.metClosed then b.prune else b, none)
  | id :: rest =>
    match b.sink? id with
    | none => some (b, some ⟨rest, true⟩)
    | some s =>
      if ¬s.isOpen then some (b, some ⟨rest, true⟩)
      else if s.queued < s.capacity then
        some (b.modify id fun s => { s with queued := s.queued + 1 }, some ⟨rest, n.metClosed⟩)
      else
        match b.policy with
        | .block => none
        | .coalesce => some (b, some ⟨rest, n.metClosed⟩)

/-- To advance is to serve one watcher after the other, until the notification is complete or has to
wait. -/
theorem advance_eq (b : Bus) (n : Notification) :
    b.advance n =
      match b.serve n with
      | some (b', some n') => b'.advance n'
      | some (b', none) => (b', none)
      | none => (b, some n) := by
  obtain ⟨rest, metClosed⟩ := n
  cases rest with
  | nil => rfl
  | cons id rest =>
      rw [advance, deliver, serve]
      dsimp only
      cases b.sink? id with
      | none => rfl
      | some s =>
          dsimp only
          split
          · rfl
          · split
            · rfl
            · cases b.policy <;> rfl

/-- What serving one watcher does: the notification is complete; or there is nobody to serve, or the
inbox is full; or it takes one signal more. -/
inductive Serves (b : Bus) : Notification → Bus → Option Notification → Prop where
  | complete (met : Bool) : b.Serves ⟨[], met⟩ (if met then b.prune else b) none
  | pass {id : Nat} {rest : List Nat} {met met' : Bool}
      (h : ∀ s, b.sink? id = some s → s.isOpen = true → s.capacity ≤ s.queued) :
      b.Serves ⟨id :: rest, met⟩ b (some ⟨rest, met'⟩)
  | signal (id : Nat) (rest : List Nat) (met : Bool) :
      b.Serves ⟨id :: rest, met⟩ (b.modify id fun s => { s with queued := s.queued + 1 })
        (some ⟨rest, met⟩)

theorem serves_of_serve (h : b.serve n = some (b', n')) : b.Serves n b' n' := by
  obtain ⟨rest, met⟩ := n
  rw [serve] at h
  split at h
  · next hrest =>
      obtain rfl := hrest
      obtain ⟨rfl, rfl⟩ := Prod.mk.inj (Option.some.inj h)
      exact .complete met
  · next id rest hrest =>
      obtain rfl := hrest
      split at h
      · next hs =>
          obtain ⟨rfl, rfl⟩ := Prod.mk.inj (Option.some.inj h)
          exact .pass fun s hs' => by cases hs.symm.trans hs'
      · next s hs =>
          split at h
          · next ho =>
              obtain ⟨rfl, rfl⟩ := Prod.mk.inj (Option.some.inj h)
              exact .pass fun s' hs' ho' => absurd (Option.some.inj (hs.symm.trans hs') ▸ ho') ho
          · split at h
            · obtain ⟨rfl, rfl⟩ := Prod.mk.inj (Option.some.inj h)
              exact .signal id rest met
            · next hfull =>
                split at h
                · cases h
                · obtain ⟨rfl, rfl⟩ := Prod.mk.inj (Option.some.inj h)
                  refine .pass fun s' hs' _ => ?_
                  rw [← Option.some.inj (hs.symm.trans hs')]
                  exact Nat.le_of_not_lt hfull

namespace Serves

theorem numbered (h : b.Serves n b' n') (hb : b.Numbered) : b'.Numbered := by
  cases h with
  | complete met =>
      split
      · exact hb.prune
      · exact hb
  | pass _ => exact hb
  | signal id rest met =>
      apply hb.modify
      exact fun _ => rfl

/-- An inbox that is read stays so, and nothing is taken out of it. -/
theorem isRead (h : b.Serves n b' n') (hr : b.IsRead i) :
    b'.IsRead i ∧ b.queued i ≤ b'.queued i := by
  obtain ⟨s, hs, ho, hc⟩ := hr
  cases h with
  | complete met =>
      have hs' : (if met then b.prune else b).sink? i = some s := by
        split
        · exact sink?_prune hs ho
        · exact hs
      refine ⟨⟨s, hs', ho, hc⟩, Nat.le_of_eq ?_⟩
      rw [queued_of_sink? hs, queued_of_sink? hs']
  | pass _ => exact ⟨⟨s, hs, ho, hc⟩, Nat.le_refl _⟩
  | signal id rest met =>
      have hs' :=
        sink?_modify (f := fun s => { s with queued := s.queued + 1 }) (fun _ => rfl) b id i
      rw [hs] at hs'
      by_cases hi : i = id
      · rw [if_pos hi] at hs'
        refine ⟨⟨_, hs', ho, hc⟩, ?_⟩
        rw [queued_of_sink? hs, queued_of_sink? hs']
        exact Nat.le_succ _
      · rw [if_neg hi] at hs'
        refine ⟨⟨s, hs', ho, hc⟩, Nat.le_of_eq ?_⟩
        rw [queued_of_sink? hs, queued_of_sink? hs']

/-- Whoever is still to be served is served later or has a signal now: a full inbox is passed over
only because a signal waits in it already. -/
theorem reaches (h : b.Serves n b' n') (hr : b.IsRead i) (hi : i ∈ n.rest) :
    0 < b'.queued i ∨ ∃ k, n' = some k ∧ i ∈ k.rest := by
  cases h with
  | complete met => cases hi
  | @pass id rest met met' hfull =>
      rcases List.mem_cons.1 hi with rfl | hi
      · obtain ⟨s, hs, ho, hc⟩ := hr
        rw [queued_of_sink? hs]
        exact .inl (Nat.lt_of_lt_of_le hc (hfull s hs ho))
      · exact .inr ⟨_, rfl, hi⟩
  | signal id rest met =>
      rcases List.mem_cons.1 hi with rfl | hi
      · obtain ⟨s, hs, -⟩ := hr
        rw [queued, sink?_modify, if_pos rfl, hs]
        · exact .inl (Nat.succ_pos _)
        · exact fun _ => rfl
      · exact .inr ⟨_, rfl, hi⟩

end Serves

/-- The same is true of as many steps as can be taken in a row. -/
theorem IsRead.advance (hr : b.IsRead i) (n : Notification) :
    (b.advance n).1.IsRead i ∧ b.queued i ≤ (b.advance n).1.queued i ∧
      (i ∈ n.rest → 0 < (b.advance n).1.queued i ∨
        ∃ n', (b.advance n).2 = some n' ∧ i ∈ n'.rest) := by
  obtain ⟨rest, met⟩ := n
  induction rest generalizing b met with
  | nil =>
      obtain ⟨hread, hle⟩ := (Serves.complete (b := b) met).isRead hr
      exact ⟨hread, hle, nofun⟩
  | cons id rest ih =>
      rw [advance_eq]
      cases hs : b.serve ⟨id :: rest, met⟩ with
      | none => exact ⟨hr, Nat.le_refl _, fun hi => .inr ⟨_, rfl, hi⟩⟩
      | some s =>
          obtain ⟨b', n'⟩ := s
          have hserves := serves_of_serve hs
          obtain ⟨hread, hle⟩ := hserves.isRead hr
          obtain ⟨met', rfl⟩ : ∃ met', n' = some ⟨rest, met'⟩ := by
            cases hserves <;> exact ⟨_, rfl⟩
          obtain ⟨hread', hle', hreach'⟩ := ih hread met'
          refine ⟨hread', Nat.le_trans hle hle', fun hi => ?_⟩
          rcases hserves.reaches hr hi with hq | ⟨k, hk, hi'⟩
          · exact .inl (Nat.lt_of_lt_of_le hq hle')
          · obtain rfl := Option.some.inj hk
            exact hreach' hi'

/-- A notification is prepared for everyone who watches. -/
theorem IsRead.mem_announce (h : b.IsRead i) : i ∈ b.announce.rest := by
  obtain ⟨s, hs, -⟩ := h
  exact List.mem_map.2 ⟨s, mem_of_sink? hs, id_of_sink? hs⟩

end ServiceMesh.Bus
