import ServiceMesh.Http.Target
import ServiceMesh.Proofs.Url.Form

/-!
What a target that names neither a scheme nor a host is made of: it is not empty, and holds no
blanks, no control characters and no number signs.
-/

namespace ServiceMesh.Http.Target

/-- The target is a path, perhaps with a query, or an asterisk. -/
def IsLocal (t : Target) : Prop := t.scheme = none ∧ t.authority = none

def IsPlain (c : Char) : Prop := 0x20 < c.toNat ∧ c ≠ '#'

instance (c : Char) : Decidable (IsPlain c) := inferInstanceAs (Decidable (_ ∧ _))

theorem lt_of_isPathByte_or {b : UInt8} (h : isPathByte b = true ∨ isQueryByte b = true) :
    0x20 < b := by
  simp only [isPathByte, isQueryByte, Bool.or_eq_true, Bool.and_eq_true, decide_eq_true_eq,
    UInt8.lt_iff_toNat_lt, UInt8.le_iff_toNat_le, ← UInt8.toNat_inj, UInt8.reduceToNat] at h ⊢
  omega

theorem isPlain_of_bytes {s : String} (h : ∀ b ∈ Utf8.bytes s, 0x20 < b ∧ b ≠ 0x23) :
    ∀ c ∈ s.toList, IsPlain c := by
  intro c hc
  by_cases hascii : c.toNat < 0x80
  · obtain ⟨hblank, hsharp⟩ := h _ (Utf8.mem_bytes hascii hc)
    have hvalue : c.toNat.toUInt8.toNat = c.toNat := by
      rw [Nat.toUInt8_eq, UInt8.toNat_ofNat', Nat.mod_eq_of_lt (by omega)]
    refine ⟨?_, ?_⟩
    · have hlt := UInt8.lt_iff_toNat_lt.1 hblank
      rwa [hvalue] at hlt
    · rintro rfl
      exact hsharp rfl
  · refine ⟨by omega, ?_⟩
    rintro rfl
    exact hascii (by decide)

theorem isPlain_of_pathAndQuery? {bs : List UInt8} {s : String} (h : pathAndQuery? bs = some s) :
    Utf8.bytes s = bs.takeWhile (· ≠ 0x23) ∧ ∀ c ∈ s.toList, IsPlain c := by
  rw [pathAndQuery?] at h
  split at h
  · next hall =>
      have hbytes := Utf8.bytes_of_text? h
      refine ⟨hbytes, isPlain_of_bytes fun b hb => ?_⟩
      rw [hbytes] at hb
      refine ⟨?_, by simpa using List.all_eq_true.1 List.all_takeWhile b hb⟩
      obtain ⟨hpath, hquery⟩ := Bool.and_eq_true_iff.1 hall
      rw [List.all_eq_true] at hpath hquery
      generalize bs.takeWhile (· ≠ 0x23) = kept at hb hpath hquery
      rw [drop_length_takeWhile] at hquery
      -- a byte of the path, the question mark, or a byte of the query
      rw [← List.takeWhile_append_dropWhile (p := (· ≠ 0x3F)) (l := kept), List.mem_append] at hb
      rcases hb with hb | hb
      · exact lt_of_isPathByte_or (.inl (hpath b hb))
      · cases hd : kept.dropWhile (· ≠ 0x3F) with
        | nil =>
            rw [hd] at hb
            cases hb
        | cons mark query =>
            rw [hd] at hb hquery
            rcases List.mem_cons.1 hb with rfl | hb
            · rw [eq_of_dropWhile_ne hd]
              decide
            · exact lt_of_isPathByte_or (.inr (hquery b hb))
  · cases h

/-- What was read names a scheme, or is a host alone, or is local. -/
theorem cases_of_parse? {text : String} {t : Target} (h : parse? text = some t) :
    t.scheme ≠ none ∨ t.pathAndQuery = "" ∨
      t.IsLocal ∧ t.pathAndQuery ≠ "" ∧ ∀ c ∈ t.pathAndQuery.toList, IsPlain c := by
  rw [parse?] at h
  dsimp only at h
  split at h
  · cases h
  · split at h
    · next hshort =>
        obtain rfl := Option.some.inj h
        have htext : text = "/" ∨ text = "*" :=
          hshort.imp (fun hb => Utf8.bytes_injective (hb.trans (by decide)))
            fun hb => Utf8.bytes_injective (hb.trans (by decide))
        have hsingle {c : Char} (hc : IsPlain c) : ∀ x ∈ [c], IsPlain x :=
          List.forall_mem_singleton.2 hc
        rcases htext with rfl | rfl
        · exact .inr (.inr ⟨⟨rfl, rfl⟩, by decide, hsingle (c := '/') (by decide)⟩)
        · exact .inr (.inr ⟨⟨rfl, rfl⟩, by decide, hsingle (c := '*') (by decide)⟩)
    · split at h
      · next hslash =>
          obtain ⟨s, hs, rfl⟩ := Option.map_eq_some_iff.1 h
          obtain ⟨hbytes, hplain⟩ := isPlain_of_pathAndQuery? hs
          obtain ⟨rest, hrest⟩ := List.head?_eq_some_iff.1 hslash
          refine .inr (.inr ⟨⟨rfl, rfl⟩, ?_, hplain⟩)
          rintro rfl
          rw [hrest, List.takeWhile_cons_of_pos (by decide), Utf8.bytes_empty] at hbytes
          cases hbytes
      · obtain ⟨⟨scheme, rest⟩, -, h⟩ := Option.bind_eq_some_iff.1 h
        obtain ⟨⟨authority, rest⟩, -, h⟩ := Option.bind_eq_some_iff.1 h
        cases scheme with
        | none =>
            dsimp only at h
            split at h
            · obtain rfl := Option.some.inj h
              exact .inr (.inl rfl)
            · cases h
        | some s =>
            dsimp only at h
            split at h
            · cases h
            · obtain ⟨name, -, h⟩ := Option.bind_eq_some_iff.1 h
              obtain ⟨place, -, h⟩ := Option.bind_eq_some_iff.1 h
              obtain rfl := Option.some.inj h
              exact .inl (by simp)

variable {t : Target}

/-- What was read with a path but without a scheme is local. -/
theorem isLocal_of_parse? {text : String} (h : parse? text = some t) (hscheme : t.scheme = none)
    (hpath : t.path ≠ "") :
    t.IsLocal ∧ t.pathAndQuery ≠ "" ∧ ∀ c ∈ t.pathAndQuery.toList, IsPlain c := by
  obtain hs | hempty | hlocal := cases_of_parse? h
  · exact absurd hscheme hs
  · exact absurd (by rw [path, if_pos ⟨hempty, by rw [hscheme]; rfl⟩]) hpath
  · exact hlocal

theorem IsLocal.resource?_eq (h : t.IsLocal) (hne : t.pathAndQuery ≠ "") :
    t.resource? = some t.pathAndQuery := by
  rw [resource?, if_pos (.inr (by rw [h.2]; rfl)), if_neg hne]

end ServiceMesh.Http.Target
