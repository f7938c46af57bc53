import ServiceMesh.Json.Record
import ServiceMesh.Json.Writer
import ServiceMesh.Proofs.Json.Number
import ServiceMesh.Proofs.Json.Text
import ServiceMesh.Proofs.Keyed

/-! The members of a record are read one by one as they were written, and so are maps of texts. -/

namespace ServiceMesh

/-! ### Maps, written in the order of their keys -/

theorem Entries.insert_of_forall_lt {β : Type} {l : List (String × β)} {k : String} {v : β}
    (h : ∀ e ∈ l, e.1 < k) : insert k v l = l ++ [(k, v)] := by
  induction l with
  | nil => rfl
  | cons e l ih =>
      have he := h e List.mem_cons_self
      have hlt : ¬k < e.1 := fun hk => String.lt_irrefl k (String.lt_trans hk he)
      have hne : k ≠ e.1 := fun hk => String.lt_irrefl k (hk ▸ he)
      rw [insert, if_neg hlt, if_neg hne, ih fun a ha => h a (List.mem_cons_of_mem e ha)]
      rfl

namespace KeyMap

variable {β : Type}

theorem entries_foldl_insert {m : KeyMap β} {l : List (String × β)}
    (h : Entries.Sorted (m.entries ++ l)) :
    (l.foldl (fun m e => m.insert e.1 e.2) m).entries = m.entries ++ l := by
  induction l generalizing m with
  | nil => simp
  | cons e l ih =>
      have hlt : ∀ a ∈ m.entries, a.1 < e.1 := fun a ha =>
        (List.pairwise_append.1 h).2.2 a ha e List.mem_cons_self
      have hm : (m.insert e.1 e.2).entries = m.entries ++ [e] := Entries.insert_of_forall_lt hlt
      rw [List.foldl_cons, ih (by rwa [hm, List.append_assoc]), hm, List.append_assoc]
      rfl

/-- A map is made of its entries. -/
theorem ofList_entries (m : KeyMap β) : ofList m.entries = m := by
  have h : (ofList m.entries).entries = m.entries := entries_foldl_insert (m := ∅) m.sorted
  cases hm : ofList m.entries
  rw [hm] at h
  cases m
  cases h
  rfl

theorem insert_comm (m : KeyMap β) {j k : String} (h : j ≠ k) (v w : β) :
    (m.insert j v).insert k w = (m.insert k w).insert j v := by
  apply ext_get?
  intro i
  rw [get?_insert, get?_insert, get?_insert, get?_insert]
  by_cases hk : i = k
  · rw [if_pos hk, if_neg (hk ▸ Ne.symm h), if_pos hk]
  · rw [if_neg hk, if_neg hk]

/-- The order in which the entries are listed does not count. -/
theorem ofList_eq_of_perm {m : KeyMap β} {l : List (String × β)} (h : l.Perm m.entries) :
    ofList l = m := by
  have hcomm : ∀ x ∈ l, ∀ y ∈ l, ∀ z : KeyMap β,
      (z.insert x.1 x.2).insert y.1 y.2 = (z.insert y.1 y.2).insert x.1 x.2 := by
    intro x hx y hy z
    by_cases hkey : x.1 = y.1
    · -- a map has one entry of a key
      have hx' := m.mem_entries_iff.1 (h.mem_iff.1 hx)
      have hy' := m.mem_entries_iff.1 (h.mem_iff.1 hy)
      rw [hkey, hy'] at hx'
      rw [hkey, Option.some.inj hx']
    · exact z.insert_comm hkey x.2 y.2
  calc
    ofList l = ofList m.entries := h.foldl_eq' hcomm ∅
    _ = m := m.ofList_entries

end KeyMap

namespace Json

theorem colon?_colon (rest : List UInt8) : colon? (Ascii.colon :: rest) = some rest := by
  rw [colon?, skipBlanks_cons rfl]
  rfl

/-! ### Records -/

section

variable {σ : Type} {fields : List (Field σ)} {field : Field σ} {key : String} {r r' : σ}
  {bs rest : List UInt8}

/-- A member that the record does not have yet. What comes after it decides how to go on. -/
theorem Record.readMembers_write (hfield : fields.find? (·.name = key) = some field)
    (hset : field.isSet r = false) (hread : field.read r bs = some (r', rest)) (fuel : Nat) :
    readMembers fields (fuel + 1) r (Text.write key (Ascii.colon :: bs)) =
      match skipBlanks rest with
      | Ascii.comma :: rest => readMembers fields fuel r' rest
      | Ascii.braceClose :: rest => some (r', rest)
      | _ => none := by
  rw [readMembers, readText_write]
  dsimp only [Option.bind_eq_bind, Option.bind_some]
  rw [colon?_colon]
  dsimp only [Option.bind_some]
  rw [hfield]
  dsimp only
  rw [hset, if_neg Bool.false_ne_true, hread]
  rfl

/-- A member with another one after it. -/
theorem Record.readMembers_comma (hfield : fields.find? (·.name = key) = some field)
    (hset : field.isSet r = false) (hread : field.read r bs = some (r', Ascii.comma :: rest))
    (fuel : Nat) :
    readMembers fields (fuel + 1) r (Text.write key (Ascii.colon :: bs)) =
      readMembers fields fuel r' rest := by
  rw [readMembers_write hfield hset hread, skipBlanks_cons rfl]
  rfl

/-- The last member. -/
theorem Record.readMembers_close (hfield : fields.find? (·.name = key) = some field)
    (hset : field.isSet r = false) (hread : field.read r bs = some (r', Ascii.braceClose :: rest))
    (fuel : Nat) :
    readMembers fields (fuel + 1) r (Text.write key (Ascii.colon :: bs)) = some (r', rest) := by
  rw [readMembers_write hfield hset hread, skipBlanks_cons rfl]
  rfl

end

theorem isBlank_of_isDigit {b : UInt8} (h : Ascii.isDigit b = true) : isBlank b = false := by
  by_contra hb
  simp only [isBlank, Bool.not_eq_false, Bool.or_eq_true, decide_eq_true_eq] at hb
  rcases hb with ((rfl | rfl) | rfl) | rfl <;> exact absurd h (by decide)

/-- A written number of a range is read back. -/
theorem readInt_decimal {n : Nat} {low high : Int} (hlow : low ≤ n) (hhigh : (n : Int) ≤ high)
    (h : n < Nat.pow 2 64) {rest : List UInt8} (hr : Number.isPast rest = true) :
    readInt low high (Number.decimal n ++ rest) = some ((n : Int), rest) := by
  have hblank : skipBlanks (Number.decimal n ++ rest) = Number.decimal n ++ rest := by
    cases hd : Number.decimal n with
    | nil => simp [Number.decimal, Nat.toDigits_ne_nil] at hd
    | cons b ds =>
        have hb : Ascii.isDigit b = true :=
          Number.isDigit_of_mem_decimal (hd ▸ List.mem_cons_self)
        exact skipBlanks_cons (isBlank_of_isDigit hb) (ds ++ rest)
  have hint : (Json.num (.unsigned n.toUInt64)).int? = some (n : Int) := by
    have hn : n.toUInt64.toNat = n := Nat.mod_eq_of_lt h
    rw [int?, hn]
  rw [readInt, hblank, Number.read_decimal h hr]
  dsimp only [Option.bind_eq_bind, Option.bind_some]
  rw [hint]
  dsimp only [Option.bind_some]
  rw [if_pos ⟨hlow, hhigh⟩]

/-- So is a written number below zero. -/
theorem readInt_minus {n : Nat} {low high : Int} (hpos : 0 < n) (hlow : low ≤ -(n : Int))
    (hhigh : -(n : Int) ≤ high) (h : n ≤ Nat.pow 2 63) {rest : List UInt8}
    (hr : Number.isPast rest = true) :
    readInt low high (Ascii.minus :: (Number.decimal n ++ rest)) = some (-(n : Int), rest) := by
  have hint : (Json.num (.negative (Int64.ofInt (-(n : Int))))).int? = some (-(n : Int)) := by
    have h63 : Nat.pow 2 63 = 9223372036854775808 := rfl
    rw [int?, Int64.toInt_ofInt_of_le (by omega) (by omega)]
  rw [readInt, skipBlanks_cons rfl, Number.read_minus hpos h hr]
  dsimp only [Option.bind_eq_bind, Option.bind_some]
  rw [hint]
  dsimp only [Option.bind_some]
  rw [if_pos ⟨hlow, hhigh⟩]

/-- A written integer of a range is read back. -/
theorem readInt_ofInt {i low high : Int} (hlow : low ≤ i) (hhigh : i ≤ high)
    (hmin : -9223372036854775808 ≤ i) (hmax : i < 18446744073709551616) {rest : List UInt8}
    (hr : Number.isPast rest = true) :
    readInt low high (writeValue (ofInt i) rest) = some (i, rest) := by
  have h64 : Nat.pow 2 64 = 18446744073709551616 := rfl
  have h63 : Nat.pow 2 63 = 9223372036854775808 := rfl
  by_cases hi : 0 ≤ i
  · have hnat : ((i.toNat : Nat) : Int) = i := Int.toNat_of_nonneg hi
    have hlt : i.toNat < Nat.pow 2 64 := by omega
    have hback : i.toNat.toUInt64.toNat = i.toNat := Nat.mod_eq_of_lt hlt
    rw [ofInt, if_pos hi, ofNat, writeValue, Number.write, hback,
      readInt_decimal (by omega) (by omega) hlt hr, hnat]
  · have hnat : -(i.natAbs : Int) = i := by omega
    have hback : (Int64.ofInt i).toInt = i := Int64.toInt_ofInt_of_le (by omega) (by omega)
    rw [ofInt, if_neg hi, writeValue, Number.write, hback, List.cons_append,
      readInt_minus (by omega) (by omega) (by omega) (by omega) hr, hnat]

/-! ### Maps of texts -/

def texts (l : List (String × String)) : List (String × Json) := l.map fun e => (e.1, .str e.2)

theorem writeMembers_texts_singleton (e : String × String) (rest : List UInt8) :
    writeMembers (texts [e]) rest = Text.write e.1 (Ascii.colon :: Text.write e.2 rest) := by
  rw [texts, List.map_cons, List.map_nil, writeMembers, writeValue]

theorem writeMembers_texts_cons (e e' : String × String) (l : List (String × String))
    (rest : List UInt8) :
    writeMembers (texts (e :: e' :: l)) rest =
      Text.write e.1 (Ascii.colon :: Text.write e.2
        (Ascii.comma :: writeMembers (texts (e' :: l)) rest)) := by
  rw [texts, List.map_cons, List.map_cons, writeMembers, writeValue]
  rfl

/-- One member of an object of texts. -/
theorem readTextMembers_write (fuel : Nat) (m : KeyMap String) (e : String × String)
    (rest : List UInt8) :
    readTextMembers (fuel + 1) m (Text.write e.1 (Ascii.colon :: Text.write e.2 rest)) =
      match skipBlanks rest with
      | Ascii.comma :: rest => readTextMembers fuel (m.insert e.1 e.2) rest
      | Ascii.braceClose :: rest => some (m.insert e.1 e.2, rest)
      | _ => none := by
  rw [readTextMembers, readText_write]
  dsimp only [Option.bind_eq_bind, Option.bind_some]
  rw [colon?_colon]
  dsimp only [Option.bind_some]
  rw [readText_write]
  rfl

theorem readTextMembers_writeMembers {l : List (String × String)} (hl : l ≠ []) {fuel : Nat}
    (hf : l.length ≤ fuel) (m : KeyMap String) (rest : List UInt8) :
    readTextMembers fuel m (writeMembers (texts l) (Ascii.braceClose :: rest)) =
      some (l.foldl (fun m e => m.insert e.1 e.2) m, rest) := by
  induction l generalizing fuel m with
  | nil => exact absurd rfl hl
  | cons e l ih =>
      obtain ⟨fuel, rfl⟩ := Nat.exists_eq_add_one_of_ne_zero (Nat.ne_zero_of_lt hf)
      cases l with
      | nil =>
          rw [writeMembers_texts_singleton, readTextMembers_write, skipBlanks_cons rfl]
          rfl
      | cons e' l =>
          rw [writeMembers_texts_cons, readTextMembers_write, skipBlanks_cons rfl]
          exact ih (List.cons_ne_nil e' l) (Nat.le_of_succ_le_succ hf) (m.insert e.1 e.2)

theorem length_le_writeMembers (l : List (String × String)) (rest : List UInt8) :
    l.length + rest.length ≤ (writeMembers (texts l) rest).length := by
  induction l with
  | nil => simp [texts, writeMembers]
  | cons e l ih =>
      cases l with
      | nil =>
          have hkey := Text.length_lt_write e.1 (Ascii.colon :: Text.write e.2 rest)
          have hvalue := Text.length_lt_write e.2 rest
          rw [writeMembers_texts_singleton]
          simp only [List.length_cons, List.length_nil] at *
          omega
      | cons e' l =>
          have hkey := Text.length_lt_write e.1 (Ascii.colon :: Text.write e.2
            (Ascii.comma :: writeMembers (texts (e' :: l)) rest))
          have hvalue := Text.length_lt_write e.2
            (Ascii.comma :: writeMembers (texts (e' :: l)) rest)
          rw [writeMembers_texts_cons]
          simp only [List.length_cons] at *
          omega

/-- The map of an object of texts, in whatever order its members are written. -/
theorem readTextMap_writeValue (l : List (String × String)) (rest : List UInt8) :
    readTextMap (writeValue (.obj (texts l)) rest) = some (KeyMap.ofList l, rest) := by
  rw [writeValue, readTextMap, skipBlanks_cons rfl]
  cases l with
  | nil => rfl
  | cons e l =>
      obtain ⟨bs, hbs⟩ : ∃ bs, writeMembers (texts (e :: l)) (Ascii.braceClose :: rest) =
          Ascii.quote :: bs := by
        cases l with
        | nil => exact ⟨_, writeMembers_texts_singleton e _⟩
        | cons e' l => exact ⟨_, writeMembers_texts_cons e e' l _⟩
      have hlen := length_le_writeMembers (e :: l) (Ascii.braceClose :: rest)
      have hread := readTextMembers_writeMembers (List.cons_ne_nil e l)
        (Nat.le_of_add_right_le (Nat.le_succ_of_le hlen)) ∅ rest
      rw [hbs] at hread ⊢
      exact hread

end Json

end ServiceMesh
