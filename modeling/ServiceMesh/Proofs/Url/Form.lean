import Mathlib.Data.List.TakeWhile
import Mathlib.Tactic.Common
import ServiceMesh.Proofs.Text.Utf8
import ServiceMesh.Url.Form

/-!
The escapes that an address puts into its query are undone when the query is taken apart: its names
and values are the same as if nothing had been escaped.
-/

namespace ServiceMesh

theorem drop_length_takeWhile {α : Type} (p : α → Bool) (l : List α) :
    l.drop (l.takeWhile p).length = l.dropWhile p := by
  have hfront := List.prefix_iff_eq_append.1 (List.takeWhile_prefix (l := l) p)
  exact List.append_cancel_left (hfront.trans List.takeWhile_append_dropWhile.symm)

theorem eq_of_dropWhile_ne {α : Type} [DecidableEq α] {a b : α} {l rest : List α}
    (h : l.dropWhile (· ≠ a) = b :: rest) : b = a := by
  have hhead := List.head?_dropWhile_not (fun x => decide (x ≠ a)) l
  rw [h] at hhead
  simpa using hhead

theorem Ascii.hexDigit?_hexDigitUpper {n : Nat} (h : n < 16) :
    hexDigit? (hexDigitUpper n) = some n := by
  have hall : ∀ m : Fin 16, hexDigit? (hexDigitUpper m) = some m.val := by decide
  exact hall ⟨n, h⟩

namespace Percent

def IsOutside (b : UInt8) : Prop := b ≠ Ascii.percent ∧ Ascii.hexDigit? b = none

/-- The first text is the second one with some of its bytes escaped, none of which could be a part
of an escape itself. -/
inductive Written : List UInt8 → List UInt8 → Prop where
  | nil : Written [] []
  | plain (b : UInt8) {ws bs : List UInt8} : Written ws bs → Written (b :: ws) (b :: bs)
  | escaped {b : UInt8} (h : IsOutside b) {ws bs : List UInt8} :
      Written ws bs → Written (escape b ++ ws) (b :: bs)

theorem decode_cons_of_ne {b : UInt8} (h : b ≠ Ascii.percent) (rest : List UInt8) :
    decode (b :: rest) = b :: decode rest := by
  rw [decode.eq_def]
  simp [h]

theorem decode_pair {high low : UInt8} {h l : Nat} (hhigh : Ascii.hexDigit? high = some h)
    (hlow : Ascii.hexDigit? low = some l) (rest : List UInt8) :
    decode (Ascii.percent :: high :: low :: rest) = (h * 16 + l).toUInt8 :: decode rest := by
  rw [decode]
  simp only [hhigh, hlow, if_pos]

theorem decode_escape (b : UInt8) (rest : List UInt8) :
    decode (escape b ++ rest) = b :: decode rest := by
  have hb := b.toNat_lt
  have hhigh := Ascii.hexDigit?_hexDigitUpper (n := b.toNat / 16) (by omega)
  have hlow := Ascii.hexDigit?_hexDigitUpper (n := b.toNat % 16) (by omega)
  have hsum : (b.toNat / 16 * 16 + b.toNat % 16).toUInt8 = b := by
    rw [Nat.div_add_mod']
    exact UInt8.ofNat_toNat
  exact (decode_pair hhigh hlow rest).trans (by rw [hsum])

/-- An escape is written in ASCII, without the characters that take a query apart. -/
theorem of_mem_escape {a b : UInt8} (h : a ∈ escape b) :
    a < 0x80 ∧ a ∉ [Ascii.plus, Ascii.ampersand, Ascii.equals] := by
  have hdigits : ∀ n : Fin 16, Ascii.hexDigitUpper n < 0x80 ∧
      Ascii.hexDigitUpper n ∉ [Ascii.plus, Ascii.ampersand, Ascii.equals] := by decide
  have hb := b.toNat_lt
  simp only [escape, List.mem_cons, List.not_mem_nil, or_false] at h
  rcases h with rfl | rfl | rfl
  · decide
  · exact hdigits ⟨b.toNat / 16, by omega⟩
  · exact hdigits ⟨b.toNat % 16, by omega⟩

/-- A percent sign stands for itself unless two digits follow. -/
theorem decode_percent {rest : List UInt8}
    (h : ¬∃ high low rest', rest = high :: low :: rest' ∧
      Ascii.hexDigit? high ≠ none ∧ Ascii.hexDigit? low ≠ none) :
    decode (Ascii.percent :: rest) = Ascii.percent :: decode rest := by
  match rest with
  | [] => rfl
  | [b] => rfl
  | high :: low :: rest' =>
      rw [decode, if_pos rfl]
      split
      · next hhigh hlow =>
          exact absurd ⟨high, low, rest', rfl, by simp [hhigh], by simp [hlow]⟩ h
      · rfl

namespace Written

variable {b : UInt8} {ws bs : List UInt8}

/-- Digits are never escaped. -/
theorem of_digit (h : Written ws (b :: bs)) (hb : Ascii.hexDigit? b ≠ none) :
    ∃ ws', ws = b :: ws' ∧ Written ws' bs := by
  cases h with
  | plain _ h => exact ⟨_, rfl, h⟩
  | escaped hout h => exact absurd hout.2 hb

/-- What begins with a digit does not begin with an escape. -/
theorem digit (h : Written (b :: ws) bs) (hb : Ascii.hexDigit? b ≠ none) :
    ∃ bs', bs = b :: bs' ∧ Written ws bs' := by
  generalize hw : b :: ws = w at h
  cases h with
  | nil => cases hw
  | plain b' h =>
      obtain ⟨rfl, rfl⟩ := List.cons.inj hw
      exact ⟨_, rfl, h⟩
  | escaped hout h =>
      obtain ⟨rfl, -⟩ := List.cons.inj hw
      exact absurd rfl hb

/-- Undoing the escapes of either text comes to the same. The induction is on the length, because a
percent sign looks two bytes ahead. -/
theorem decode_eq (h : Written ws bs) : decode ws = decode bs := by
  induction hn : bs.length using Nat.strongRecOn generalizing ws bs with
  | _ n ih =>
      subst hn
      cases h with
      | nil => rfl
      | escaped hout h =>
          rw [decode_escape, decode_cons_of_ne hout.1, ih _ (Nat.lt_succ_self _) h rfl]
      | @plain b ws bs h =>
          by_cases hb : b = Ascii.percent
          · subst hb
            by_cases hpair : ∃ high low rest, bs = high :: low :: rest ∧
                Ascii.hexDigit? high ≠ none ∧ Ascii.hexDigit? low ≠ none
            · obtain ⟨high, low, rest, rfl, hhigh, hlow⟩ := hpair
              obtain ⟨ws', rfl, hrest⟩ := h.of_digit hhigh
              obtain ⟨ws', rfl, hrest'⟩ := hrest.of_digit hlow
              obtain ⟨m, hm⟩ := Option.ne_none_iff_exists'.1 hhigh
              obtain ⟨n, hn⟩ := Option.ne_none_iff_exists'.1 hlow
              rw [decode_pair hm hn, decode_pair hm hn,
                ih _ (by simp only [List.length_cons]; omega) hrest' rfl]
            · rw [decode_percent hpair, decode_percent, ih _ (Nat.lt_succ_self _) h rfl]
              rintro ⟨high, low, rest, rfl, hhigh, hlow⟩
              obtain ⟨bs', rfl, hrest⟩ := h.digit hhigh
              obtain ⟨bs', rfl, -⟩ := hrest.digit hlow
              exact hpair ⟨high, low, bs', rfl, hhigh, hlow⟩
          · rw [decode_cons_of_ne hb, decode_cons_of_ne hb, ih _ (Nat.lt_succ_self _) h rfl]

end Written

/-- The bytes of a written text are its bytes with escapes, if all bytes beyond ASCII are escaped. -/
theorem bytes_encode {set : UInt8 → Bool} (hset : ∀ b, 0x80 ≤ b → set b = true) (s : String) :
    Utf8.bytes (encode set s) = encodeBytes set (Utf8.bytes s) := by
  have hascii : ∀ b ∈ encodeBytes set (Utf8.bytes s), b < 0x80 := by
    intro b hb
    obtain ⟨a, -, hb⟩ := List.mem_flatMap.1 hb
    split at hb
    · exact (of_mem_escape hb).1
    · next ha =>
        obtain rfl := List.mem_singleton.1 hb
        by_contra hlt
        exact ha (hset b (UInt8.not_lt.1 hlt))
  obtain ⟨w, htext, hbytes⟩ := Utf8.exists_text? hascii
  rw [encode, htext, Option.getD_some, hbytes]

end Percent

namespace Form

open Percent

/-! ### Taking a query apart -/

theorem pieces_ne_nil (sep : UInt8) (bs : List UInt8) : pieces sep bs ≠ [] := by
  cases bs with
  | nil => simp [pieces]
  | cons b bs =>
      rw [pieces]
      split
      · simp
      · split <;> simp

theorem pieces_append {sep : UInt8} {front : List UInt8} (h : sep ∉ front) (rest : List UInt8) :
    pieces sep (front ++ rest) = (pieces sep rest).modifyHead (front ++ ·) := by
  induction front with
  | nil =>
      cases hp : pieces sep rest with
      | nil => exact absurd hp (pieces_ne_nil sep rest)
      | cons piece more => rw [List.nil_append, hp]; rfl
  | cons b front ih =>
      obtain ⟨hb, hfront⟩ : sep ≠ b ∧ sep ∉ front := by simpa using h
      rw [List.cons_append, pieces, if_neg (Ne.symm hb), ih hfront]
      cases hp : pieces sep rest with
      | nil => exact absurd hp (pieces_ne_nil sep rest)
      | cons piece more => rfl

/-- What stands for itself or a space stands in the query, and what is escaped is none of the
characters that take a query apart. -/
theorem of_inWebQuery {b : UInt8} (h : inWebQuery b = true) :
    IsOutside b ∧ b ∉ [Ascii.plus, Ascii.ampersand, Ascii.equals] := by
  have hall : ∀ b, inWebQuery b = true → (b ≠ Ascii.percent ∧ Ascii.hexDigit? b = none) ∧
      b ∉ [Ascii.plus, Ascii.ampersand, Ascii.equals] := Utf8.forall_byte (by decide +kernel)
  exact hall b h

theorem inWebQuery_of_le {b : UInt8} (h : 0x80 ≤ b) : inWebQuery b = true := by
  have hle : (0x7F : UInt8) ≤ b := UInt8.le_trans (by decide) h
  simp [inWebQuery, inQuery, isControl, hle]

theorem encodeBytes_cons (b : UInt8) (bs : List UInt8) :
    encodeBytes inWebQuery (b :: bs) =
      (if inWebQuery b then escape b else [b]) ++ encodeBytes inWebQuery bs :=
  List.flatMap_cons

/-- The characters that take a query apart stand for themselves in it. -/
theorem encodeBytes_cons_self {sep : UInt8}
    (h : sep ∈ [Ascii.plus, Ascii.ampersand, Ascii.equals]) (bs : List UInt8) :
    encodeBytes inWebQuery (sep :: bs) = sep :: encodeBytes inWebQuery bs := by
  have hfree : ¬inWebQuery sep = true := fun hset => (of_inWebQuery hset).2 h
  rw [encodeBytes_cons, if_neg hfree]
  rfl

/-- Nothing else is written with them. -/
theorem notMem_written {b sep : UInt8} (h : sep ∈ [Ascii.plus, Ascii.ampersand, Ascii.equals])
    (hb : b ≠ sep) : sep ∉ if inWebQuery b then escape b else [b] := by
  split
  · exact fun hmem => (of_mem_escape hmem).2 h
  · simpa using Ne.symm hb

theorem pieces_encodeBytes (bs : List UInt8) :
    pieces Ascii.ampersand (encodeBytes inWebQuery bs) =
      (pieces Ascii.ampersand bs).map (encodeBytes inWebQuery) := by
  induction bs with
  | nil => rfl
  | cons b bs ih =>
      by_cases hb : b = Ascii.ampersand
      · rw [hb, encodeBytes_cons_self (by decide), pieces, if_pos rfl, pieces, if_pos rfl, ih]
        rfl
      · rw [encodeBytes_cons, pieces_append (notMem_written (by decide) hb), ih, pieces, if_neg hb]
        cases hp : pieces Ascii.ampersand bs with
        | nil => exact absurd hp (pieces_ne_nil _ bs)
        | cons piece more =>
            rw [List.map_cons, List.modifyHead_cons, List.map_cons]
            rfl

theorem takeWhile_encodeBytes (bs : List UInt8) :
    (encodeBytes inWebQuery bs).takeWhile (· ≠ Ascii.equals) =
      encodeBytes inWebQuery (bs.takeWhile (· ≠ Ascii.equals)) := by
  induction bs with
  | nil => rfl
  | cons b bs ih =>
      by_cases hb : b = Ascii.equals
      · rw [hb, encodeBytes_cons_self (by decide), List.takeWhile_cons_of_neg (by simp),
          List.takeWhile_cons_of_neg (by simp)]
        rfl
      · have hnot := notMem_written (show Ascii.equals ∈ _ by decide) hb
        rw [List.takeWhile_cons_of_pos (by simpa using hb), encodeBytes_cons, encodeBytes_cons,
          List.takeWhile_append_of_pos, ih]
        intro a ha
        simpa using fun he : a = Ascii.equals => hnot (he ▸ ha)

theorem dropWhile_encodeBytes (bs : List UInt8) :
    (encodeBytes inWebQuery bs).dropWhile (· ≠ Ascii.equals) =
      encodeBytes inWebQuery (bs.dropWhile (· ≠ Ascii.equals)) := by
  have hsplit : encodeBytes inWebQuery bs =
      encodeBytes inWebQuery (bs.takeWhile (· ≠ Ascii.equals)) ++
        encodeBytes inWebQuery (bs.dropWhile (· ≠ Ascii.equals)) := by
    rw [encodeBytes, encodeBytes, encodeBytes, ← List.flatMap_append,
      List.takeWhile_append_dropWhile]
  have hboth := List.takeWhile_append_dropWhile (p := (· ≠ Ascii.equals))
    (l := encodeBytes inWebQuery bs)
  rw [takeWhile_encodeBytes] at hboth
  exact List.append_cancel_left (hboth.trans hsplit)

theorem drop_dropWhile_encodeBytes (bs : List UInt8) :
    ((encodeBytes inWebQuery bs).dropWhile (· ≠ Ascii.equals)).drop 1 =
      encodeBytes inWebQuery ((bs.dropWhile (· ≠ Ascii.equals)).drop 1) := by
  rw [dropWhile_encodeBytes]
  cases hd : bs.dropWhile (· ≠ Ascii.equals) with
  | nil => rfl
  | cons b rest =>
      rw [eq_of_dropWhile_ne hd, encodeBytes_cons_self (by decide)]
      rfl

/-- Spaces may be written as plus signs before the escapes are undone. -/
theorem written_map_encodeBytes (bs : List UInt8) :
    Written ((encodeBytes inWebQuery bs).map fun b => if b = Ascii.plus then Ascii.space else b)
      (bs.map fun b => if b = Ascii.plus then Ascii.space else b) := by
  induction bs with
  | nil => exact .nil
  | cons b bs ih =>
      rw [encodeBytes_cons, List.map_append, List.map_cons]
      by_cases hb : inWebQuery b = true
      · obtain ⟨hout, hnot⟩ := of_inWebQuery hb
        have hplus : b ≠ Ascii.plus := by
          rintro rfl
          exact hnot (by decide)
        have hescape : (escape b).map (fun b => if b = Ascii.plus then Ascii.space else b) =
            escape b := by
          refine (List.map_congr_left fun a ha => if_neg ?_).trans (List.map_id' _)
          rintro rfl
          exact (of_mem_escape ha).2 (by decide)
        rw [if_pos hb, hescape, if_neg hplus]
        exact .escaped hout ih
      · rw [if_neg hb]
        exact .plain _ ih

theorem decodePart_encodeBytes (bs : List UInt8) :
    decodePart (encodeBytes inWebQuery bs) = decodePart bs := by
  rw [decodePart, (written_map_encodeBytes bs).decode_eq, decodePart]

/-- A query has the same pairs with its escapes and without. -/
theorem pairs_encodeBytes (bs : List UInt8) : pairs (encodeBytes inWebQuery bs) = pairs bs := by
  have hempty (piece : List UInt8) : encodeBytes inWebQuery piece = [] ↔ piece = [] := by
    cases piece with
    | nil => simp [encodeBytes]
    | cons b piece =>
        rw [encodeBytes_cons]
        split <;> simp [escape]
  rw [pairs, pairs, pieces_encodeBytes, List.filter_map, List.map_map]
  have hfilter : ((fun piece => decide (piece ≠ [])) ∘ encodeBytes inWebQuery) =
      fun piece => decide (piece ≠ []) := by
    funext piece
    simp [hempty]
  rw [hfilter]
  refine List.map_congr_left fun piece _ => ?_
  simp only [Function.comp, drop_length_takeWhile]
  rw [takeWhile_encodeBytes, drop_dropWhile_encodeBytes, decodePart_encodeBytes,
    decodePart_encodeBytes]

end Form

end ServiceMesh
