import ServiceMesh.Proofs.Json.Record
import ServiceMesh.Proofs.Text.Utf8

/-!
Values that are read back as they were written. What is written of a value without floating point
numbers reads as this value, whatever follows it, as long as the reader may open as many arrays and
objects in one another as the value has.
-/

namespace ServiceMesh.Json

/-- A value without floating point numbers, with at most so many arrays and objects in one another.
It has the form of all values: a negative number is below zero, and the members of an object are
listed in the order of their keys. -/
inductive Exact : Nat → Json → Prop where
  | null {depth : Nat} : Exact depth .null
  | bool {depth : Nat} (b : Bool) : Exact depth (.bool b)
  | unsigned {depth : Nat} (n : UInt64) : Exact depth (.num (.unsigned n))
  | negative {depth : Nat} {n : Int64} (h : n < 0) : Exact depth (.num (.negative n))
  | str {depth : Nat} (s : String) : Exact depth (.str s)
  | arr {depth : Nat} {items : List Json} (h : ∀ v ∈ items, Exact depth v) :
      Exact (depth + 1) (.arr items)
  | obj {depth : Nat} {members : List (String × Json)} (hsorted : Entries.Sorted members)
      (h : ∀ e ∈ members, Exact depth e.2) : Exact (depth + 1) (.obj members)

/-- How a value is written: in at least one byte, which is neither a blank nor the end of an array,
and in such a way that it is read back, given room for what it opens and two steps for each byte. -/
structure ReadsBack (room : Nat) (v : Json) : Prop where
  start : ∀ rest, ∃ b bs, writeValue v rest = b :: bs ∧ isBlank b = false ∧ b ≠ Ascii.bracketClose
  grows : ∀ rest, rest.length < (writeValue v rest).length
  reads : ∀ {fuel : Nat} {rest : List UInt8}, Number.isPast rest = true →
    2 * (writeValue v rest).length ≤ fuel + 2 * rest.length →
    readValue room fuel (writeValue v rest) = some (v, rest)

variable {room fuel : Nat} {rest : List UInt8}

/-! ### Values without parts -/

/-- A value without parts is read in a single step. -/
theorem ReadsBack.of_cons {v : Json} {b : UInt8} (hblank : isBlank b = false)
    (hclose : b ≠ Ascii.bracketClose)
    (h : ∀ rest, ∃ bs, writeValue v rest = b :: bs ∧ rest.length ≤ bs.length ∧
      ∀ fuel, Number.isPast rest = true → readValue room (fuel + 1) (b :: bs) = some (v, rest)) :
    ReadsBack room v where
  start rest := by
    obtain ⟨bs, hwrite, -, -⟩ := h rest
    exact ⟨b, bs, hwrite, hblank, hclose⟩
  grows rest := by
    obtain ⟨bs, hwrite, hlen, -⟩ := h rest
    rw [hwrite, List.length_cons]
    omega
  reads {fuel rest} hpast hfuel := by
    obtain ⟨bs, hwrite, hlen, hread⟩ := h rest
    rw [hwrite, List.length_cons] at hfuel
    obtain ⟨fuel, rfl⟩ := Nat.exists_eq_add_one_of_ne_zero (n := fuel) (by omega)
    rw [hwrite]
    exact hread fuel hpast

theorem word?_append (w rest : List UInt8) : word? w (w ++ rest) = some rest := by
  rw [word?, if_pos (List.isPrefixOf_iff_prefix.2 (List.prefix_append w rest)), List.drop_left]

/-- A word that is read by its first byte. -/
theorem ReadsBack.of_word {v : Json} {b : UInt8} {w : List UInt8} (hblank : isBlank b = false)
    (hclose : b ≠ Ascii.bracketClose) (hwrite : ∀ rest, writeValue v rest = b :: w ++ rest)
    (hread : ∀ fuel bs, readValue room (fuel + 1) (b :: bs) = (word? w bs).map fun r => (v, r)) :
    ReadsBack room v := by
  refine .of_cons hblank hclose fun rest =>
    ⟨w ++ rest, hwrite rest, (List.suffix_append w rest).length_le, fun fuel _ => ?_⟩
  rw [hread, word?_append]
  rfl

theorem readsBack_null : ReadsBack room .null := by
  have hbytes : Utf8.bytes "null" = 0x6E :: Utf8.bytes "ull" := by decide
  refine .of_word (b := 0x6E) (by decide) (by decide)
    (fun rest => by rw [writeValue, hbytes]) fun fuel bs => ?_
  rw [readValue, skipBlanks_cons (by decide)]
  rfl

theorem readsBack_true : ReadsBack room (.bool true) := by
  have hbytes : Utf8.bytes "true" = 0x74 :: Utf8.bytes "rue" := by decide
  refine .of_word (b := 0x74) (by decide) (by decide)
    (fun rest => by rw [writeValue, hbytes]) fun fuel bs => ?_
  rw [readValue, skipBlanks_cons (by decide)]
  rfl

theorem readsBack_false : ReadsBack room (.bool false) := by
  have hbytes : Utf8.bytes "false" = 0x66 :: Utf8.bytes "alse" := by decide
  refine .of_word (b := 0x66) (by decide) (by decide)
    (fun rest => by rw [writeValue, hbytes]) fun fuel bs => ?_
  rw [readValue, skipBlanks_cons (by decide)]
  rfl

theorem readsBack_str (s : String) : ReadsBack room (.str s) := by
  refine .of_cons (b := Ascii.quote) (by decide) (by decide) fun rest => ?_
  obtain ⟨bs, hwrite, hread⟩ := Text.read_write s rest
  have hlen := Text.length_lt_write s rest
  rw [hwrite, List.length_cons] at hlen
  refine ⟨bs, by rw [writeValue, hwrite], Nat.le_of_lt_succ hlen, fun fuel _ => ?_⟩
  rw [readValue, skipBlanks_cons (by decide)]
  dsimp only
  rw [if_pos rfl, hread]
  rfl

/-- What begins with a digit or a minus sign is a number. -/
theorem readValue_number {b : UInt8} (h : Ascii.isDigit b = true ∨ b = Ascii.minus)
    (bs : List UInt8) :
    readValue room (fuel + 1) (b :: bs) =
      (Number.read (b :: bs)).map fun r => (.num r.1, r.2) := by
  have hother : ∀ b, Ascii.isDigit b = true ∨ b = Ascii.minus → isBlank b = false ∧
      b ∉ [Ascii.quote, Ascii.bracketOpen, Ascii.braceOpen, 0x6E, 0x74, 0x66] :=
    Utf8.forall_byte (by decide +kernel)
  obtain ⟨hblank, hmem⟩ := hother b h
  simp only [List.mem_cons, List.not_mem_nil, or_false, not_or] at hmem
  obtain ⟨hquote, hbracket, hbrace, hnull, htrue, hfalse⟩ := hmem
  rw [readValue, skipBlanks_cons hblank]
  dsimp only
  rw [if_neg hquote, if_neg hbracket, if_neg hbrace, if_neg hnull, if_neg htrue, if_neg hfalse]

theorem readsBack_unsigned (n : UInt64) : ReadsBack room (.num (.unsigned n)) := by
  have hback : n.toNat.toUInt64 = n := UInt64.ofNat_toNat
  obtain ⟨b, ds, hdigits⟩ : ∃ b ds, Number.decimal n.toNat = b :: ds :=
    List.exists_cons_of_ne_nil (by simp [Number.decimal, Nat.toDigits_ne_nil])
  have hb : Ascii.isDigit b = true :=
    Number.isDigit_of_mem_decimal (hdigits ▸ List.mem_cons_self)
  refine .of_cons (isBlank_of_isDigit hb) ?_ fun rest =>
    ⟨ds ++ rest, ?_, (List.suffix_append _ _).length_le, fun fuel hpast => ?_⟩
  · rintro rfl
    exact absurd hb (by decide)
  · rw [writeValue, Number.write, hdigits, List.cons_append]
  · rw [readValue_number (.inl hb), ← List.cons_append, ← hdigits,
      Number.read_decimal n.toNat_lt hpast, hback]
    rfl

theorem readsBack_negative {n : Int64} (h : n < 0) : ReadsBack room (.num (.negative n)) := by
  have hneg : n.toInt < 0 := Int64.lt_iff_toInt_lt.1 h
  have hmin : -9223372036854775808 ≤ n.toInt := n.minValue_le_toInt
  have h63 : Nat.pow 2 63 = 9223372036854775808 := rfl
  have hback : Int64.ofInt (-(n.toInt.natAbs : Int)) = n := by
    rw [show -(n.toInt.natAbs : Int) = n.toInt by omega, Int64.ofInt_toInt]
  refine .of_cons (b := Ascii.minus) (by decide) (by decide) fun rest =>
    ⟨Number.decimal n.toInt.natAbs ++ rest, ?_, (List.suffix_append _ _).length_le, fun fuel hpast => ?_⟩
  · rw [writeValue, Number.write, List.cons_append]
  · rw [readValue_number (.inr rfl), Number.read_minus (by omega) (by omega) hpast, hback]
    rfl

/-! ### Arrays -/

section

variable {items : List Json}

theorem length_le_writeItems (h : ∀ v ∈ items, ReadsBack room v) (rest : List UInt8) :
    rest.length ≤ (writeItems items rest).length := by
  induction items with
  | nil => exact Nat.le_of_eq (by rw [writeItems])
  | cons v items ih =>
      have hv := (h v List.mem_cons_self).grows
      cases items with
      | nil =>
          rw [writeItems]
          exact Nat.le_of_lt (hv rest)
      | cons w items =>
          have hmore := ih fun x hx => h x (List.mem_cons_of_mem v hx)
          have hfirst := hv (Ascii.comma :: writeItems (w :: items) rest)
          rw [List.length_cons] at hfirst
          rw [writeItems]
          omega

theorem start_writeItems {v : Json} (h : ∀ x ∈ v :: items, ReadsBack room x) (rest : List UInt8) :
    ∃ b bs, writeItems (v :: items) rest = b :: bs ∧ isBlank b = false ∧ b ≠ Ascii.bracketClose := by
  have hv := (h v List.mem_cons_self).start
  cases items with
  | nil =>
      rw [writeItems]
      exact hv rest
  | cons w items =>
      rw [writeItems]
      exact hv _

/-- An item with another one after it. -/
theorem readItems_comma {v : Json} {bs : List UInt8}
    (hread : readValue room fuel bs = some (v, Ascii.comma :: rest)) :
    readItems room (fuel + 1) bs = (readItems room fuel rest).map fun r => (v :: r.1, r.2) := by
  rw [readItems, hread]
  dsimp only [Option.bind_eq_bind, Option.bind_some]
  rw [skipBlanks_cons rfl]
  change (readItems room fuel rest).bind _ = _
  cases readItems room fuel rest <;> rfl

/-- The last item. -/
theorem readItems_close {v : Json} {bs : List UInt8}
    (hread : readValue room fuel bs = some (v, Ascii.bracketClose :: rest)) :
    readItems room (fuel + 1) bs = some ([v], rest) := by
  rw [readItems, hread]
  dsimp only [Option.bind_eq_bind, Option.bind_some]
  rw [skipBlanks_cons rfl]
  rfl

/-- The items are read one after the other. -/
theorem readItems_writeItems (h : ∀ v ∈ items, ReadsBack room v) (hne : items ≠ [])
    (hfuel : 2 * (writeItems items (Ascii.bracketClose :: rest)).length ≤ fuel + 2 * rest.length) :
    readItems room fuel (writeItems items (Ascii.bracketClose :: rest)) = some (items, rest) := by
  induction items generalizing fuel with
  | nil => exact absurd rfl hne
  | cons v items ih =>
      have hv := h v List.mem_cons_self
      cases items with
      | nil =>
          have hgrows := hv.grows (Ascii.bracketClose :: rest)
          rw [List.length_cons] at hgrows
          rw [writeItems] at hfuel ⊢
          obtain ⟨fuel, rfl⟩ := Nat.exists_eq_add_one_of_ne_zero (n := fuel) (by omega)
          exact readItems_close (hv.reads rfl (by rw [List.length_cons]; omega))
      | cons w items =>
          have hmore : ∀ x ∈ w :: items, ReadsBack room x :=
            fun x hx => h x (List.mem_cons_of_mem v hx)
          have hlen := length_le_writeItems hmore (Ascii.bracketClose :: rest)
          have hgrows := hv.grows
            (Ascii.comma :: writeItems (w :: items) (Ascii.bracketClose :: rest))
          rw [List.length_cons] at hlen hgrows
          rw [writeItems] at hfuel ⊢
          obtain ⟨fuel, rfl⟩ := Nat.exists_eq_add_one_of_ne_zero (n := fuel) (by omega)
          rw [readItems_comma (hv.reads rfl (by rw [List.length_cons]; omega)),
            ih hmore (List.cons_ne_nil w items) (by omega)]
          rfl

theorem readsBack_arr (h : ∀ v ∈ items, ReadsBack room v) : ReadsBack (room + 1) (.arr items) where
  start rest := ⟨Ascii.bracketOpen, _, by rw [writeValue], by decide, by decide⟩
  grows rest := by
    have hlen := length_le_writeItems h (Ascii.bracketClose :: rest)
    rw [writeValue, List.length_cons]
    rw [List.length_cons] at hlen
    omega
  reads {fuel rest} hpast hfuel := by
    have hlen := length_le_writeItems h (Ascii.bracketClose :: rest)
    rw [List.length_cons] at hlen
    rw [writeValue, List.length_cons] at hfuel
    obtain ⟨fuel, rfl⟩ := Nat.exists_eq_add_one_of_ne_zero (n := fuel) (by omega)
    rw [writeValue, readValue, skipBlanks_cons rfl]
    dsimp only
    rw [if_neg (by decide), if_pos rfl]
    cases items with
    | nil =>
        rw [writeItems, skipBlanks_cons rfl]
        rfl
    | cons v items =>
        have hread : readItems room fuel _ = some (v :: items, rest) :=
          readItems_writeItems h (List.cons_ne_nil v items) (by omega)
        obtain ⟨b, bs, hwrite, hblank, hclose⟩ := start_writeItems h (Ascii.bracketClose :: rest)
        rw [hwrite] at hread ⊢
        rw [skipBlanks_cons hblank]
        split
        · next he => exact absurd (List.cons.inj he).1 hclose
        · rw [hread]
          rfl

end

/-! ### Objects -/

section

variable {members found : List (String × Json)}

theorem length_le_writeMembers_of_readsBack (h : ∀ e ∈ members, ReadsBack room e.2)
    (rest : List UInt8) : rest.length ≤ (writeMembers members rest).length := by
  induction members with
  | nil => exact Nat.le_of_eq (by rw [writeMembers])
  | cons e members ih =>
      obtain ⟨k, v⟩ := e
      have hv : ReadsBack room v := h (k, v) List.mem_cons_self
      cases members with
      | nil =>
          have hkey := Text.length_lt_write k (Ascii.colon :: writeValue v rest)
          have hvalue := hv.grows rest
          rw [List.length_cons] at hkey
          rw [writeMembers]
          omega
      | cons e members =>
          have hmore := ih fun x hx => h x (List.mem_cons_of_mem (k, v) hx)
          have hvalue := hv.grows (Ascii.comma :: writeMembers (e :: members) rest)
          have hkey := Text.length_lt_write k
            (Ascii.colon :: writeValue v (Ascii.comma :: writeMembers (e :: members) rest))
          rw [List.length_cons] at hvalue hkey
          rw [writeMembers]
          omega

/-- A member with another one after it. -/
theorem readMembers_comma {v : Json} {bs : List UInt8}
    (hread : readValue room fuel bs = some (v, Ascii.comma :: rest)) (k : String) :
    readMembers room (fuel + 1) found (Text.write k (Ascii.colon :: bs)) =
      readMembers room fuel (Entries.insert k v found) rest := by
  rw [readMembers, readText_write]
  dsimp only [Option.bind_eq_bind, Option.bind_some]
  rw [colon?_colon]
  dsimp only [Option.bind_some]
  rw [hread]
  dsimp only [Option.bind_some]
  rw [skipBlanks_cons rfl]
  rfl

/-- The last member. -/
theorem readMembers_close {v : Json} {bs : List UInt8}
    (hread : readValue room fuel bs = some (v, Ascii.braceClose :: rest)) (k : String) :
    readMembers room (fuel + 1) found (Text.write k (Ascii.colon :: bs)) =
      some (Entries.insert k v found, rest) := by
  rw [readMembers, readText_write]
  dsimp only [Option.bind_eq_bind, Option.bind_some]
  rw [colon?_colon]
  dsimp only [Option.bind_some]
  rw [hread]
  dsimp only [Option.bind_some]
  rw [skipBlanks_cons rfl]
  rfl

/-- The members are read one after the other, each behind those that were found before it. -/
theorem readMembers_writeMembers (h : ∀ e ∈ members, ReadsBack room e.2) (hne : members ≠ [])
    (hsorted : Entries.Sorted (found ++ members))
    (hfuel : 2 * (writeMembers members (Ascii.braceClose :: rest)).length ≤
      fuel + 2 * rest.length) :
    readMembers room fuel found (writeMembers members (Ascii.braceClose :: rest)) =
      some (found ++ members, rest) := by
  induction members generalizing fuel found with
  | nil => exact absurd rfl hne
  | cons e members ih =>
      obtain ⟨k, v⟩ := e
      have hv : ReadsBack room v := h (k, v) List.mem_cons_self
      have hinsert : Entries.insert k v found = found ++ [(k, v)] :=
        Entries.insert_of_forall_lt fun a ha =>
          (List.pairwise_append.1 hsorted).2.2 a ha (k, v) List.mem_cons_self
      cases members with
      | nil =>
          have hgrows := hv.grows (Ascii.braceClose :: rest)
          have hkey := Text.length_lt_write k
            (Ascii.colon :: writeValue v (Ascii.braceClose :: rest))
          rw [List.length_cons] at hgrows hkey
          rw [writeMembers] at hfuel ⊢
          obtain ⟨fuel, rfl⟩ := Nat.exists_eq_add_one_of_ne_zero (n := fuel) (by omega)
          rw [readMembers_close (hv.reads rfl (by rw [List.length_cons]; omega)), hinsert]
      | cons e members =>
          have hmore : ∀ x ∈ e :: members, ReadsBack room x.2 :=
            fun x hx => h x (List.mem_cons_of_mem (k, v) hx)
          have hlen := length_le_writeMembers_of_readsBack hmore (Ascii.braceClose :: rest)
          have hgrows := hv.grows
            (Ascii.comma :: writeMembers (e :: members) (Ascii.braceClose :: rest))
          have hkey := Text.length_lt_write k (Ascii.colon ::
            writeValue v (Ascii.comma :: writeMembers (e :: members) (Ascii.braceClose :: rest)))
          rw [List.length_cons] at hlen hgrows hkey
          rw [writeMembers] at hfuel ⊢
          obtain ⟨fuel, rfl⟩ := Nat.exists_eq_add_one_of_ne_zero (n := fuel) (by omega)
          rw [readMembers_comma (hv.reads rfl (by rw [List.length_cons]; omega)), hinsert,
            ih hmore (List.cons_ne_nil e members) (by simpa using hsorted) (by omega),
            List.append_assoc]
          rfl

theorem exists_writeMembers (e : String × Json) (members : List (String × Json))
    (rest : List UInt8) : ∃ bs, writeMembers (e :: members) rest = Ascii.quote :: bs := by
  cases members with
  | nil => exact ⟨_, by rw [writeMembers, Text.write]⟩
  | cons e' members => exact ⟨_, by rw [writeMembers, Text.write]⟩

theorem readsBack_obj (hsorted : Entries.Sorted members)
    (h : ∀ e ∈ members, ReadsBack room e.2) : ReadsBack (room + 1) (.obj members) where
  start rest := ⟨Ascii.braceOpen, _, by rw [writeValue], by decide, by decide⟩
  grows rest := by
    have hlen := length_le_writeMembers_of_readsBack h (Ascii.braceClose :: rest)
    rw [List.length_cons] at hlen
    rw [writeValue, List.length_cons]
    omega
  reads {fuel rest} hpast hfuel := by
    rw [writeValue, List.length_cons] at hfuel
    obtain ⟨fuel, rfl⟩ := Nat.exists_eq_add_one_of_ne_zero (n := fuel) (by
      have hlen := length_le_writeMembers_of_readsBack h (Ascii.braceClose :: rest)
      rw [List.length_cons] at hlen
      omega)
    rw [writeValue, readValue, skipBlanks_cons rfl]
    dsimp only
    rw [if_neg (by decide), if_neg (by decide), if_pos rfl]
    cases members with
    | nil =>
        rw [writeMembers, skipBlanks_cons rfl]
        rfl
    | cons e members =>
        have hread : readMembers room fuel [] _ = some (e :: members, rest) :=
          readMembers_writeMembers h (List.cons_ne_nil e members) hsorted (by omega)
        obtain ⟨bs, hwrite⟩ := exists_writeMembers e members (Ascii.braceClose :: rest)
        rw [hwrite] at hread ⊢
        rw [skipBlanks_cons rfl]
        change (readMembers room fuel [] (Ascii.quote :: bs)).map _ = _
        rw [hread]
        rfl

end

/-! ### All values -/

theorem Exact.readsBack {v : Json} (h : Exact room v) : ReadsBack room v := by
  induction h with
  | null => exact readsBack_null
  | bool b =>
      cases b with
      | true => exact readsBack_true
      | false => exact readsBack_false
  | unsigned n => exact readsBack_unsigned n
  | negative h => exact readsBack_negative h
  | str s => exact readsBack_str s
  | arr _ ih => exact readsBack_arr ih
  | obj hsorted _ ih => exact readsBack_obj hsorted ih

/-- A written value is read back, whatever follows it. -/
theorem valueReader_writeValue {v : Json} (h : Exact room v) (hpast : Number.isPast rest = true) :
    valueReader room (writeValue v rest) = some (v, rest) :=
  h.readsBack.reads hpast (by omega)

end ServiceMesh.Json
