import Mathlib.Tactic.Common
import ServiceMesh.Json.Reader

/-! A string that was written is read back, whatever follows it. -/

namespace ServiceMesh

theorem Ascii.hexDigit?_hexDigit {n : Nat} (h : n < 16) : hexDigit? (hexDigit n) = some n := by
  have hall : ∀ m : Fin 16, hexDigit? (hexDigit m) = some m.val := by decide
  exact hall ⟨n, h⟩

namespace Json.Text

/-- Four digits that begin with two zeros are one byte. -/
theorem unit?_byte (n : Nat) (h : n < 256) (rest : List UInt8) :
    unit? (Ascii.zero :: Ascii.zero :: Ascii.hexDigit (n / 16) :: Ascii.hexDigit (n % 16) :: rest) =
      some (n, rest) := by
  have hzero : Ascii.hexDigit? Ascii.zero = some 0 := rfl
  have hhigh := Ascii.hexDigit?_hexDigit (n := n / 16) (by omega)
  have hlow := Ascii.hexDigit?_hexDigit (n := n % 16) (by omega)
  have hsum : ((0 * 16 + 0) * 16 + n / 16) * 16 + n % 16 = n := by omega
  simp [unit?, hzero, hhigh, hlow, Nat.div_add_mod']

/-- A character below the space is one byte of its own. -/
theorem utf8EncodeChar_of_lt {n : Nat} (h : n < 32) :
    String.utf8EncodeChar (Char.ofNat n) = [n.toUInt8] := by
  have hall : ∀ m : Fin 32, String.utf8EncodeChar (Char.ofNat m) = [m.val.toUInt8] := by decide
  exact hall ⟨n, h⟩

/-- An escape letter stands for its byte. -/
theorem readBytes_plainEscape {e c : UInt8} (he : e ≠ 0x75) (hc : plainEscape? e = some c)
    (fuel : Nat) (rest : List UInt8) :
    readBytes (fuel + 1) (Ascii.backslash :: e :: rest) =
      (readBytes fuel rest).map fun r => (c :: r.1, r.2) := by
  rw [readBytes, if_neg (by decide), if_pos rfl]
  dsimp only
  rw [if_neg he, hc]
  cases readBytes fuel rest <;> rfl

/-- So does an escaped code unit of one byte below the space. -/
theorem readBytes_unit {n : Nat} (h : n < 32) (fuel : Nat) (rest : List UInt8) :
    readBytes (fuel + 1) (Ascii.backslash :: 0x75 :: Ascii.zero :: Ascii.zero ::
        Ascii.hexDigit (n / 16) :: Ascii.hexDigit (n % 16) :: rest) =
      (readBytes fuel rest).map fun r => (n.toUInt8 :: r.1, r.2) := by
  have hscalar : scalar? (Ascii.zero :: Ascii.zero :: Ascii.hexDigit (n / 16) ::
      Ascii.hexDigit (n % 16) :: rest) = some (Char.ofNat n, rest) := by
    rw [scalar?, unit?_byte n (by omega) rest]
    dsimp only [Option.bind_eq_bind, Option.bind_some]
    rw [if_neg (by omega), if_neg (by omega)]
    rfl
  rw [readBytes, if_neg (by decide), if_pos rfl]
  dsimp only
  rw [if_pos rfl, hscalar]
  dsimp only [Option.bind_eq_bind, Option.bind_some]
  rw [utf8EncodeChar_of_lt h]
  cases readBytes fuel rest <;> rfl

/-- A byte that needs no escape stands for itself. -/
theorem readBytes_plain {b : UInt8} (hquote : b ≠ Ascii.quote) (hback : b ≠ Ascii.backslash)
    (hlow : ¬b < 0x20) (fuel : Nat) (rest : List UInt8) :
    readBytes (fuel + 1) (b :: rest) = (readBytes fuel rest).map fun r => (b :: r.1, r.2) := by
  rw [readBytes.eq_def]
  dsimp only
  rw [if_neg hquote, if_neg hback, if_neg hlow]
  cases readBytes fuel rest <;> rfl

/-- The written form of a byte reads as the byte. -/
theorem readBytes_escape (fuel : Nat) (b : UInt8) (rest : List UInt8) :
    readBytes (fuel + 1) (escape b ++ rest) =
      (readBytes fuel rest).map fun r => (b :: r.1, r.2) := by
  rw [escape]
  -- the seven bytes with an escape letter of their own
  iterate 7
    split
    · next h =>
        subst h
        exact readBytes_plainEscape (by decide) rfl fuel rest
  split
  · next h =>
      have hlt : b.toNat < 32 := by simpa [UInt8.lt_iff_toNat_lt] using h
      have hb : b.toNat.toUInt8 = b := UInt8.ofNat_toNat
      have hread := readBytes_unit hlt fuel rest
      rwa [hb] at hread
  · next hquote hback _ _ _ _ _ hlow => exact readBytes_plain hquote hback hlow fuel rest

/-- The closing quote ends a string. -/
theorem readBytes_quote (fuel : Nat) (rest : List UInt8) :
    readBytes (fuel + 1) (Ascii.quote :: rest) = some ([], rest) := by
  rw [readBytes.eq_def]
  rfl

theorem readBytes_write (bs : List UInt8) {fuel : Nat} (h : bs.length < fuel) (rest : List UInt8) :
    readBytes fuel (bs.foldr (fun b r => escape b ++ r) (Ascii.quote :: rest)) =
      some (bs, rest) := by
  induction bs generalizing fuel with
  | nil =>
      obtain ⟨fuel, rfl⟩ := Nat.exists_eq_succ_of_ne_zero (Nat.ne_zero_of_lt h)
      exact readBytes_quote fuel rest
  | cons b bs ih =>
      obtain ⟨fuel, rfl⟩ := Nat.exists_eq_succ_of_ne_zero (Nat.ne_zero_of_lt h)
      rw [List.foldr_cons, readBytes_escape, ih (Nat.lt_of_succ_lt_succ h)]
      rfl

theorem length_le_escape (b : UInt8) : 1 ≤ (escape b).length := by
  rw [escape]
  repeat' split
  all_goals simp

theorem length_le_foldr_escape (bs rest : List UInt8) :
    bs.length + rest.length ≤ (bs.foldr (fun b r => escape b ++ r) rest).length := by
  induction bs with
  | nil => simp
  | cons b bs ih =>
      have hb := length_le_escape b
      rw [List.foldr_cons, List.length_append, List.length_cons]
      omega

theorem length_lt_write (s : String) (rest : List UInt8) : rest.length < (write s rest).length := by
  have h := length_le_foldr_escape (Utf8.bytes s) (Ascii.quote :: rest)
  rw [List.length_cons] at h
  rw [write, List.length_cons]
  omega

theorem read_write (s : String) (rest : List UInt8) :
    ∃ bs, write s rest = Ascii.quote :: bs ∧ read bs = some (s, rest) := by
  refine ⟨_, rfl, ?_⟩
  have hlen := length_le_foldr_escape (Utf8.bytes s) (Ascii.quote :: rest)
  rw [List.length_cons] at hlen
  rw [read, readBytes_write (Utf8.bytes s) (by omega)]
  dsimp only [Option.bind_eq_bind, Option.bind_some]
  rw [Utf8.text?_bytes]
  rfl

end Json.Text

/-- What does not begin with a blank has no blanks to pass over. -/
theorem Json.skipBlanks_cons {b : UInt8} (h : isBlank b = false) (rest : List UInt8) :
    skipBlanks (b :: rest) = b :: rest := by
  rw [skipBlanks, List.dropWhile_cons, h]
  rfl

/-- A written string is read back, whatever follows it. -/
theorem Json.readText_write (s : String) (rest : List UInt8) :
    readText (Text.write s rest) = some (s, rest) := by
  obtain ⟨bs, hw, hr⟩ := Text.read_write s rest
  rw [readText, hw, skipBlanks_cons rfl]
  exact hr

end ServiceMesh
