import Mathlib.Tactic.Common
import ServiceMesh.Json.Number

/-! A whole number that was written is read back, unless what follows it goes on with it. -/

namespace ServiceMesh.Json.Number

def digit (n : Nat) : UInt8 := (48 + n).toUInt8

theorem isDigit_digit {n : Nat} (h : n < 10) : Ascii.isDigit (digit n) = true := by
  have hall : ∀ m : Fin 10, Ascii.isDigit (digit m) = true := by decide
  exact hall ⟨n, h⟩

theorem digit_sub {n : Nat} (h : n < 10) : (digit n - 0x30).toNat = n := by
  have hall : ∀ m : Fin 10, (digit m - 0x30).toNat = m := by decide
  exact hall ⟨n, h⟩

theorem digit_eq_zero {n : Nat} (h : n < 10) (hz : digit n = Ascii.zero) : n = 0 := by
  have hall : ∀ m : Fin 10, digit m = Ascii.zero → m.val = 0 := by decide
  exact hall ⟨n, h⟩ hz

/-! ### The digits of a number -/

theorem decimal_of_lt {n : Nat} (h : n < 10) : decimal n = [digit n] := by
  rw [decimal, Nat.toDigits_of_lt_base h, List.map_singleton, Nat.toNat_digitChar_of_lt_ten h]
  rfl

theorem decimal_of_le {n : Nat} (h : 10 ≤ n) :
    decimal n = decimal (n / 10) ++ [digit (n % 10)] := by
  rw [decimal, Nat.toDigits_of_base_le (by omega) h, List.map_append, List.map_singleton,
    Nat.toNat_digitChar_of_lt_ten (Nat.mod_lt n (by omega))]
  rfl

theorem isDigit_of_mem_decimal {n : Nat} {b : UInt8} (h : b ∈ decimal n) :
    Ascii.isDigit b = true := by
  induction n using Nat.strongRecOn with
  | _ n ih =>
      rcases Nat.lt_or_ge n 10 with hn | hn
      · rw [decimal_of_lt hn, List.mem_singleton] at h
        exact h ▸ isDigit_digit hn
      · rw [decimal_of_le hn, List.mem_append, List.mem_singleton] at h
        rcases h with h | rfl
        · exact ih (n / 10) (by omega) h
        · exact isDigit_digit (Nat.mod_lt n (by omega))

/-- Only zero begins with a zero. -/
theorem head?_decimal {n : Nat} (h : 0 < n) :
    ∃ b, (decimal n).head? = some b ∧ b ≠ Ascii.zero := by
  induction n using Nat.strongRecOn with
  | _ n ih =>
      rcases Nat.lt_or_ge n 10 with hn | hn
      · rw [decimal_of_lt hn]
        exact ⟨digit n, rfl, fun hz => absurd (digit_eq_zero hn hz) (by omega)⟩
      · obtain ⟨b, hb, hne⟩ := ih (n / 10) (by omega) (by omega)
        exact ⟨b, by rw [decimal_of_le hn, List.head?_append, hb]; rfl, hne⟩

/-- The digits of a number lead up to it. -/
theorem accumulate_decimal {n : Nat} (h : n < Nat.pow 2 64) (ds : List UInt8) :
    accumulate 0 (decimal n ++ ds) = accumulate n ds := by
  induction n using Nat.strongRecOn generalizing ds with
  | _ n ih =>
      rcases Nat.lt_or_ge n 10 with hn | hn
      · rw [decimal_of_lt hn, List.singleton_append, accumulate, digit_sub hn,
          Nat.zero_mul, Nat.zero_add, if_pos h]
      · have hsum : n / 10 * 10 + n % 10 = n := Nat.div_add_mod' n 10
        rw [decimal_of_le hn, List.append_assoc, List.singleton_append,
          ih (n / 10) (by omega) (by omega), accumulate, digit_sub (Nat.mod_lt n (by omega)),
          hsum, if_pos h]

/-! ### Reading them -/

/-- Nothing that follows here would still belong to a number before it. -/
def isPast (bs : List UInt8) : Bool :=
  bs.head?.all fun b => !Ascii.isDigit b && b != Ascii.dot && b != 0x65 && b != 0x45

theorem spanDigits_append {ds rest : List UInt8} (hd : ∀ b ∈ ds, Ascii.isDigit b = true)
    (hr : isPast rest = true) : spanDigits (ds ++ rest) = (ds, rest) := by
  induction ds with
  | nil =>
      cases rest with
      | nil => rfl
      | cons b rest =>
          have hb : ¬Ascii.isDigit b = true := by
            intro hb
            simp [isPast, hb] at hr
          rw [List.nil_append, spanDigits, if_neg hb]
  | cons b ds ih =>
      rw [List.cons_append, spanDigits, if_pos (hd b List.mem_cons_self),
        ih fun c hc => hd c (List.mem_cons_of_mem b hc)]

theorem afterInteger_of_isPast {n : Nat} {rest : List UInt8} (h : isPast rest = true)
    (negative : Bool) : afterInteger negative n 0 rest = some (ofInteger negative n, rest) := by
  cases rest with
  | nil => rfl
  | cons b rest =>
      have hdot : b ≠ Ascii.dot := by
        rintro rfl
        simp [isPast] at h
      have hexp : startsExponent (b :: rest) = false := by
        simp only [isPast, List.head?_cons, Option.all_some, Bool.and_eq_true, bne_iff_ne] at h
        simp [startsExponent, h.1.2, h.2]
      rw [afterInteger]
      · rw [if_pos (by rw [hexp]; rfl)]
      · rintro bs he
        exact hdot (List.cons.inj he).1

theorem readUnsigned_decimal {n : Nat} (h : n < Nat.pow 2 64) {rest : List UInt8}
    (hr : isPast rest = true) (negative : Bool) :
    readUnsigned negative (decimal n ++ rest) = some (ofInteger negative n, rest) := by
  have hspan : spanDigits (decimal n ++ rest) = (decimal n, rest) :=
    spanDigits_append (fun b hb => isDigit_of_mem_decimal hb) hr
  have hacc := accumulate_decimal h []
  rw [List.append_nil, accumulate] at hacc
  rw [readUnsigned, hspan]
  split
  · next he => exact absurd (Prod.mk.inj he).1 (by rw [decimal]; simp [Nat.toDigits_ne_nil])
  · next c cs rest' he =>
      -- more than one digit after a leading zero
      exfalso
      have hd := (Prod.mk.inj he).1
      rcases Nat.eq_zero_or_pos n with rfl | hn
      · rw [decimal_of_lt (by omega)] at hd
        cases (List.cons.inj hd).2
      · obtain ⟨b, hb, hne⟩ := head?_decimal hn
        rw [hd] at hb
        exact hne (Option.some.inj hb).symm
  · next ds rest' _ _ he =>
      obtain ⟨rfl, rfl⟩ := Prod.mk.inj he
      rw [hacc]
      exact afterInteger_of_isPast hr negative

theorem read_decimal {n : Nat} (h : n < Nat.pow 2 64) {rest : List UInt8}
    (hr : isPast rest = true) :
    read (decimal n ++ rest) = some (.unsigned n.toUInt64, rest) := by
  rw [read]
  · exact readUnsigned_decimal h hr false
  · intro bs he
    have hmem : Ascii.minus ∈ decimal n := by
      cases hd : decimal n with
      | nil => simp [decimal, Nat.toDigits_ne_nil] at hd
      | cons b ds =>
          rw [hd, List.cons_append] at he
          exact (List.cons.inj he).1 ▸ List.mem_cons_self
    exact absurd (isDigit_of_mem_decimal hmem) (by decide)

theorem read_minus {n : Nat} (hpos : 0 < n) (h : n ≤ Nat.pow 2 63) {rest : List UInt8}
    (hr : isPast rest = true) :
    read (Ascii.minus :: (decimal n ++ rest)) =
      some (.negative (Int64.ofInt (-(n : Int))), rest) := by
  have hlt : n < Nat.pow 2 64 := Nat.lt_of_le_of_lt h (by decide)
  change readUnsigned true _ = _
  rw [readUnsigned_decimal hlt hr true, ofInteger, if_pos rfl, if_pos ⟨hpos, h⟩]

end ServiceMesh.Json.Number
