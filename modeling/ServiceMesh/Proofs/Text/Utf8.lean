import Mathlib.Tactic.Common
import ServiceMesh.Text.Utf8

/-! The bytes of a text, character by character; a character of ASCII is one byte. -/

namespace ServiceMesh.Utf8

/-- What holds of all bytes can be decided. -/
theorem forall_byte {P : UInt8 → Prop} (h : ∀ n : Fin 256, P (UInt8.ofNat n)) (b : UInt8) : P b := by
  have hb := h ⟨b.toNat, b.toNat_lt⟩
  rwa [UInt8.ofNat_toNat] at hb

theorem bytes_eq_flatMap (s : String) : bytes s = s.toList.flatMap String.utf8EncodeChar := by
  rw [bytes, ← String.utf8Encode_toList, List.utf8Encode]
  simp

theorem bytes_ofList (cs : List Char) :
    bytes (String.ofList cs) = cs.flatMap String.utf8EncodeChar := by
  rw [bytes_eq_flatMap, String.toList_ofList]

theorem utf8EncodeChar_of_lt {c : Char} (h : c.toNat < 0x80) :
    String.utf8EncodeChar c = [c.toNat.toUInt8] := by
  have hsize : c.utf8Size = 1 := by
    rw [Char.utf8Size_eq_one_iff, UInt32.le_iff_toNat_le]
    exact Nat.le_of_lt_succ h
  rw [String.utf8EncodeChar_eq_singleton hsize]
  rfl

theorem mem_bytes {s : String} {c : Char} (h : c.toNat < 0x80) (hc : c ∈ s.toList) :
    c.toNat.toUInt8 ∈ bytes s := by
  rw [bytes_eq_flatMap, List.mem_flatMap]
  exact ⟨c, hc, by simp [utf8EncodeChar_of_lt h]⟩

/-- Bytes of ASCII are a text. -/
theorem exists_text? {bs : List UInt8} (h : ∀ b ∈ bs, b < 0x80) :
    ∃ s, text? bs = some s ∧ bytes s = bs := by
  have hback : bytes (String.ofList (bs.map fun b => Char.ofNat b.toNat)) = bs := by
    rw [bytes_ofList, List.flatMap_map]
    induction bs with
    | nil => rfl
    | cons b bs ih =>
        have hb : b.toNat < 0x80 := UInt8.lt_iff_toNat_lt.1 (h b List.mem_cons_self)
        have hchars : ∀ n : Fin 0x80, (Char.ofNat n).toNat = n := by decide
        have hchar : (Char.ofNat b.toNat).toNat = b.toNat := hchars ⟨b.toNat, hb⟩
        rw [List.flatMap_cons, ih fun a ha => h a (List.mem_cons_of_mem b ha),
          utf8EncodeChar_of_lt (by rw [hchar]; exact hb), hchar]
        simp
  refine ⟨_, ?_, hback⟩
  conv_lhs => rw [← hback]
  rw [text?_bytes]

end ServiceMesh.Utf8
