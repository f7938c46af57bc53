import ServiceMesh.Proofs.Store.Log

/-!
What a feed yields is what was published since it looked last, short of what it does not want. An
event comes out only after everything before it was passed over, and nothing comes out only if
nothing wanted is left.
-/

namespace ServiceMesh

namespace Feed

variable {f g : Feed} {s : Store}

def ahead (f : Feed) (s : Store) : List Event := s.published.toList.drop f.position

theorem ahead_eq_cons {e : Event} (h : s.published[f.position]? = some e) :
    f.ahead s = e :: ({ f with position := f.position + 1 } : Feed).ahead s := by
  have hl : s.published.toList[f.position]? = some e := by simpa using h
  obtain ⟨hlt, he⟩ := List.getElem?_eq_some_iff.1 hl
  rw [ahead, List.drop_eq_getElem_cons hlt, he]
  rfl

theorem ahead_eq_nil (h : s.published[f.position]? = none) : f.ahead s = [] := by
  have hl : s.published.toList[f.position]? = none := by simpa using h
  exact List.drop_eq_nil_iff.2 (List.getElem?_eq_none_iff.1 hl)

/-- One look at a feed that is not behind: it is at the end, or one event is read. -/
theorem read?_cases (h : f.unread s ≤ capacity) :
    (f.read? s = none ∧ f.ahead s = []) ∨
      ∃ e, f.read? s =
          some ({ f with position := f.position + 1 }, if f.wants e then some (.ok e) else none) ∧
        f.ahead s = e :: ({ f with position := f.position + 1 } : Feed).ahead s ∧
        f.position < s.published.size := by
  rw [read?, if_neg (Nat.not_lt.2 h)]
  cases hp : s.published[f.position]? with
  | none => exact .inl ⟨rfl, ahead_eq_nil hp⟩
  | some e =>
      obtain ⟨hlt, -⟩ := Array.getElem?_eq_some_iff.1 hp
      exact .inr ⟨e, rfl, ahead_eq_cons hp, hlt⟩

/-- A feed that yields an event has passed over events that it does not want. -/
theorem seek_ok {fuel : Nat} {e : Event} (h : seek s fuel f = (g, some (.ok e))) :
    g.start = f.start ∧ g.position ≤ s.published.size ∧
      ∃ skipped, f.ahead s = skipped ++ e :: g.ahead s ∧
        (∀ e' ∈ skipped, f.wants e' = false) ∧ g.position = f.position + skipped.length + 1 := by
  induction fuel generalizing f with
  | zero => cases h
  | succ fuel ih =>
      rw [seek] at h
      by_cases hlag : f.unread s ≤ capacity
      · rcases read?_cases hlag with ⟨hr, -⟩ | ⟨e', hr, ha, hlt⟩
        · rw [hr] at h
          cases h
        · rw [hr] at h
          cases hw : f.wants e' with
          | true =>
              simp only [hw, if_true, Prod.mk.injEq, Option.some.injEq, Except.ok.injEq] at h
              obtain ⟨rfl, rfl⟩ := h
              exact ⟨rfl, hlt, [], ha, by simp, rfl⟩
          | false =>
              -- an unwanted event joins those that were passed over
              simp only [hw, Bool.false_eq_true, if_false] at h
              obtain ⟨hs, hle, skipped, hsk, hun, hpos⟩ := ih h
              refine ⟨hs, hle, e' :: skipped, by rw [ha, hsk]; rfl, ?_, ?_⟩
              · intro x hx
                rcases List.mem_cons.1 hx with rfl | hx
                · exact hw
                · exact hun x hx
              · rw [hpos, List.length_cons]
                dsimp only
                omega
      · rw [read?, if_pos (Nat.lt_of_not_le hlag)] at h
        cases h

/-- A feed that yields nothing has passed over all that is left. -/
theorem seek_none {fuel : Nat} (hfuel : f.unread s ≤ fuel) (hpos : f.position ≤ s.published.size)
    (h : seek s fuel f = (g, none)) :
    g = { f with position := s.published.size } ∧ ∀ e ∈ f.ahead s, f.wants e = false := by
  induction fuel generalizing f with
  | zero =>
      -- without fuel there is nothing left to read
      obtain ⟨rfl, -⟩ := Prod.mk.inj h
      have hend : f.position = s.published.size := by
        rw [unread] at hfuel
        omega
      refine ⟨by rw [← hend], fun e he => ?_⟩
      rw [ahead, List.drop_eq_nil_of_le (by simp [hend])] at he
      cases he
  | succ fuel ih =>
      rw [seek] at h
      by_cases hlag : f.unread s ≤ capacity
      · rcases read?_cases hlag with ⟨hr, ha⟩ | ⟨e', hr, ha, hlt⟩
        · rw [hr] at h
          obtain ⟨rfl, -⟩ := Prod.mk.inj h
          have hend : f.position = s.published.size := by
            have hle := List.drop_eq_nil_iff.1 ha
            rw [Array.length_toList] at hle
            omega
          refine ⟨by rw [← hend], fun e he => ?_⟩
          rw [ha] at he
          cases he
        · rw [hr] at h
          cases hw : f.wants e' with
          | true =>
              rw [hw] at h
              cases h
          | false =>
              simp only [hw, Bool.false_eq_true, if_false] at h
              have hfuel' : ({ f with position := f.position + 1 } : Feed).unread s ≤ fuel := by
                rw [unread] at hfuel ⊢
                dsimp only
                omega
              obtain ⟨rfl, hun⟩ := ih hfuel' hlt h
              refine ⟨rfl, fun e he => ?_⟩
              rw [ha] at he
              rcases List.mem_cons.1 he with rfl | he
              · exact hw
              · exact hun e he
      · rw [read?, if_pos (Nat.lt_of_not_le hlag)] at h
        cases h

theorem next_ok {e : Event} (h : f.next s = (g, some (.ok e))) :
    g.start = f.start ∧ g.position ≤ s.published.size ∧
      ∃ skipped, f.ahead s = skipped ++ e :: g.ahead s ∧
        (∀ e' ∈ skipped, f.wants e' = false) ∧ g.position = f.position + skipped.length + 1 :=
  seek_ok h

theorem next_none (hpos : f.position ≤ s.published.size) (h : f.next s = (g, none)) :
    g = { f with position := s.published.size } ∧ ∀ e ∈ f.ahead s, f.wants e = false :=
  seek_none (Nat.le_refl _) hpos h

end Feed

end ServiceMesh
