import Mathlib.Data.Char
import ServiceMesh.KeyMap
import ServiceMesh.Proofs.Text.Utf8

/-!
The bytes of texts, compared and searched. Of two texts the smaller has the smaller bytes, a text
begins with another exactly when its bytes begin with those of the other, and where a byte of ASCII
stands a text can be cut. So whoever sees only bytes comes to the same answers.
-/

namespace ServiceMesh.Utf8

open String (utf8EncodeChar)

/-- Of two characters the smaller has the smaller bytes, whatever comes after them: the bytes of one
are never the beginning of those of the other. -/
theorem utf8EncodeChar_append_lt {c d : Char} (h : c < d) (l m : List UInt8) :
    utf8EncodeChar c ++ l < utf8EncodeChar d ++ m := by
  have hlt : c.val.toNat < d.val.toNat := UInt32.lt_iff_toNat_lt.1 h
  have hmax : d.val.toNat < 0x110000 := d.valid.elim (fun h => by omega) (fun h => h.2)
  -- what is left of the number when its last digits, in base 64, are taken off
  have h4096 (n : Nat) : n / 4096 = n / 64 / 64 := by omega
  have h262144 (n : Nat) : n / 262144 = n / 64 / 64 / 64 := by omega
  rw [utf8EncodeChar, utf8EncodeChar, h4096, h262144, h4096, h262144]
  generalize c.val.toNat = v at hlt
  generalize d.val.toNat = w at hlt hmax
  -- one case for each pair of lengths, the first of which is not the longer
  split_ifs <;>
    simp only [List.cons_append, List.nil_append, List.cons_lt_cons_iff, UInt8.lt_iff_toNat_lt,
      ← UInt8.toNat_inj, UInt8.toNat_ofNat'] <;> omega

theorem flatMap_lt_flatMap {l m : List Char} (h : l < m) :
    l.flatMap utf8EncodeChar < m.flatMap utf8EncodeChar := by
  induction l generalizing m with
  | nil =>
      cases m with
      | nil => exact absurd h (List.lt_irrefl _)
      | cons d m =>
          rw [List.flatMap_nil, List.flatMap_cons]
          obtain ⟨b, bs, hb⟩ := List.exists_cons_of_ne_nil (String.utf8EncodeChar_ne_nil (c := d))
          rw [hb]
          exact List.nil_lt_cons b _
  | cons c l ih =>
      cases m with
      | nil => exact absurd h (List.not_lt_nil _)
      | cons d m =>
          rw [List.flatMap_cons, List.flatMap_cons]
          rcases List.cons_lt_cons_iff.1 h with hlt | ⟨rfl, hlt⟩
          · exact utf8EncodeChar_append_lt hlt _ _
          · exact List.append_left_lt (ih hlt)

theorem bytes_lt_bytes_iff {s t : String} : bytes s < bytes t ↔ s < t := by
  have mono {s t : String} (h : s < t) : bytes s < bytes t := by
    rw [bytes_eq_flatMap, bytes_eq_flatMap]
    exact flatMap_lt_flatMap h
  refine ⟨fun h => ?_, mono⟩
  by_contra hn
  by_cases hst : s = t
  · exact List.lt_irrefl _ (hst ▸ h)
  · exact List.lt_asymm h (mono (Entries.lt_of_not_lt_of_ne hn hst))

theorem bytes_prefix_bytes_iff {s t : String} : bytes s <+: bytes t ↔ s.toList <+: t.toList := by
  rw [bytes_eq_flatMap, bytes_eq_flatMap]
  generalize s.toList = l
  generalize t.toList = m
  constructor
  · intro h
    induction l generalizing m with
    | nil => exact List.nil_prefix
    | cons c l ih =>
        obtain ⟨r, hr⟩ := h
        rw [List.flatMap_cons, List.append_assoc] at hr
        cases m with
        | nil => exact absurd (List.append_eq_nil_iff.1 hr).1 String.utf8EncodeChar_ne_nil
        | cons d m =>
            rw [List.flatMap_cons] at hr
            -- different characters would put the bytes in an order, but they are the same
            rcases lt_trichotomy c d with hlt | rfl | hlt
            · exact absurd (hr ▸ utf8EncodeChar_append_lt hlt _ _) (List.lt_irrefl _)
            · exact List.cons_prefix_cons.2 ⟨rfl, ih _ ⟨r, List.append_cancel_left hr⟩⟩
            · exact absurd (hr ▸ utf8EncodeChar_append_lt hlt _ _) (List.lt_irrefl _)
  · rintro ⟨r, rfl⟩
    rw [List.flatMap_append]
    exact List.prefix_append _ _

/-! ### Where a text can be cut -/

/-- A byte of ASCII is its character, and no part of another. -/
theorem eq_of_mem_utf8EncodeChar {c d : Char} (hc : c.toNat < 0x80)
    (h : c.toNat.toUInt8 ∈ utf8EncodeChar d) : d = c := by
  have hc' : c.val.toNat < 0x80 := hc
  rw [← Char.toNat_inj]
  change d.val.toNat = c.val.toNat
  change c.val.toNat.toUInt8 ∈ _ at h
  rw [utf8EncodeChar] at h
  generalize c.val.toNat = v at h hc'
  generalize d.val.toNat = w at h
  split_ifs at h <;>
    simp only [List.mem_cons, List.not_mem_nil, or_false, ← UInt8.toNat_inj, UInt8.toNat_ofNat',
      Nat.toUInt8_eq] at h <;> omega

/-- Where a byte of ASCII stands between two runs of bytes, its character stands between two texts
that these runs are the bytes of. -/
theorem exists_of_flatMap_eq {c : Char} (hc : c.toNat < 0x80) {l : List Char} {a b : List UInt8}
    (h : l.flatMap utf8EncodeChar = a ++ c.toNat.toUInt8 :: b) :
    ∃ l₁ l₂, l = l₁ ++ c :: l₂ ∧ l₁.flatMap utf8EncodeChar = a ∧
      l₂.flatMap utf8EncodeChar = b := by
  induction l generalizing a with
  | nil => exact absurd h.symm (by simp)
  | cons d l ih =>
      rw [List.flatMap_cons] at h
      -- the byte stands behind the bytes of the first character, or it is its only one
      obtain ⟨a', rfl, hl⟩ | ⟨c', hd, hb⟩ := List.append_eq_append_iff.1 h
      · obtain ⟨l₁, l₂, rfl, rfl, rfl⟩ := ih hl
        exact ⟨d :: l₁, l₂, rfl, rfl, rfl⟩
      · cases c' with
        | nil =>
            obtain ⟨l₁, l₂, rfl, hl₁, rfl⟩ := ih (a := []) hb.symm
            refine ⟨d :: l₁, l₂, rfl, ?_, rfl⟩
            rw [List.flatMap_cons, hl₁, hd, List.append_nil, List.append_nil]
        | cons x c' =>
            obtain ⟨rfl, rfl⟩ := List.cons_eq_cons.1 hb
            have hmem : c.toNat.toUInt8 ∈ utf8EncodeChar d := by
              rw [hd]
              exact List.mem_append_right a List.mem_cons_self
            obtain rfl := eq_of_mem_utf8EncodeChar hc hmem
            rw [utf8EncodeChar_of_lt hc] at hd
            cases a with
            | nil =>
                obtain rfl := (List.cons_eq_cons.1 hd).2
                exact ⟨[], l, rfl, rfl, rfl⟩
            | cons y a => exact absurd (List.cons_eq_cons.1 hd).2 (by simp)

end ServiceMesh.Utf8
