import Mathlib.Data.List.Nodup
import Mathlib.Tactic.Common
import ServiceMesh.KeyMap

/-! Lists whose elements are told apart by a key, and maps from keys. -/

namespace ServiceMesh.Keyed

variable {α κ : Type} [DecidableEq κ] {f : α → κ}

/-- With distinct keys a list finds every element that it holds. -/
theorem find?_eq_some_iff {l : List α} (h : (l.map f).Nodup) {k : κ} {a : α} :
    l.find? (fun b => f b = k) = some a ↔ a ∈ l ∧ f a = k := by
  constructor
  · intro hf
    exact ⟨List.mem_of_find?_eq_some hf, by simpa using List.find?_some hf⟩
  · rintro ⟨ha, rfl⟩
    induction l with
    | nil => cases ha
    | cons b l ih =>
        rw [List.map_cons, List.nodup_cons] at h
        rcases List.mem_cons.1 ha with rfl | ha
        · simp
        · have hne : f b ≠ f a := fun he => h.1 (he ▸ List.mem_map.2 ⟨a, ha, rfl⟩)
          rw [List.find?_cons_of_neg (by simpa using hne)]
          exact ih h.2 ha

/-- An element is the only one with its key. -/
theorem filter_eq_singleton {l : List α} (h : (l.map f).Nodup) {a : α} (ha : a ∈ l) :
    l.filter (fun b => f b = f a) = [a] := by
  induction l with
  | nil => cases ha
  | cons b l ih =>
      rw [List.map_cons, List.nodup_cons] at h
      rcases List.mem_cons.1 ha with rfl | ha
      · have hrest : l.filter (fun b => f b = f a) = [] := by
          rw [List.filter_eq_nil_iff]
          intro b hb he
          exact h.1 (List.mem_map.2 ⟨b, hb, of_decide_eq_true he⟩)
        rw [List.filter_cons_of_pos (by simp), hrest]
      · have hne : f b ≠ f a := fun he => h.1 (he ▸ List.mem_map.2 ⟨a, ha, rfl⟩)
        rw [List.filter_cons_of_neg (by simpa using hne), ih h.2 ha]

end ServiceMesh.Keyed

namespace ServiceMesh

/-- Maps with the same look-ups are equal. -/
theorem KeyMap.ext_get? {β : Type} {m m' : KeyMap β} (h : ∀ k, m.get? k = m'.get? k) : m = m' := by
  have hmem (e : String × β) : e ∈ m.entries ↔ e ∈ m'.entries := by
    rw [m.mem_entries_iff, m'.mem_entries_iff, h]
  have hnodup (m : KeyMap β) : m.entries.Nodup :=
    m.sorted.imp fun hlt (he : _ = _) => String.ne_of_lt hlt (congrArg Prod.fst he)
  have hperm := (List.perm_ext_iff_of_nodup (hnodup m) (hnodup m')).2 hmem
  have hentries : m.entries = m'.entries :=
    hperm.eq_of_pairwise (fun _ _ _ _ hab hba => absurd (String.lt_trans hab hba) (String.lt_irrefl _))
      m.sorted m'.sorted
  cases m
  cases m'
  cases hentries
  rfl

end ServiceMesh
