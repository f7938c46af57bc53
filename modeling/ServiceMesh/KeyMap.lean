/-!
Finite maps from text to values. A map is its list of entries, strictly increasing by key, so two
maps with the same look-ups are equal and every listing comes out in key order. Keys are compared
by code point, which is the order of their UTF-8 bytes.
-/

namespace ServiceMesh

variable {β γ : Type}

namespace Entries

/-- The list is strictly increasing by key. -/
def Sorted (l : List (String × β)) : Prop :=
  l.Pairwise fun a b => a.1 < b.1

/-- The value of a key in a list of entries. -/
def lookup (k : String) : List (String × β) → Option β
  | [] => none
  | e :: l => if e.1 = k then some e.2 else lookup k l

/-- Writes an entry at its place, over an entry of the same key if there is one. -/
def insert (k : String) (v : β) : List (String × β) → List (String × β)
  | [] => [(k, v)]
  | e :: l =>
    if k < e.1 then (k, v) :: e :: l
    else if k = e.1 then (k, v) :: l
    else e :: insert k v l

/-- Takes the entry of a key out. -/
def erase (k : String) (l : List (String × β)) : List (String × β) :=
  l.filter fun e => e.1 ≠ k

theorem insert_nil (k : String) (v : β) : insert k v [] = [(k, v)] := rfl

theorem insert_cons (k : String) (v : β) (e : String × β) (l : List (String × β)) :
    insert k v (e :: l) = if k < e.1 then (k, v) :: e :: l
      else if k = e.1 then (k, v) :: l else e :: insert k v l := rfl

theorem lookup_cons (k : String) (e : String × β) (l : List (String × β)) :
    lookup k (e :: l) = if e.1 = k then some e.2 else lookup k l := rfl

theorem mem_insert {k : String} {v : β} {e : String × β} {l : List (String × β)}
    (h : e ∈ insert k v l) : e = (k, v) ∨ e ∈ l := by
  induction l with
  | nil => simpa [insert_nil] using h
  | cons a l ih =>
    rw [insert_cons] at h
    split at h
    · simpa using h
    · split at h
      · rcases List.mem_cons.1 h with h | h
        · exact .inl h
        · exact .inr (List.mem_cons_of_mem _ h)
      · rcases List.mem_cons.1 h with h | h
        · exact .inr (h ▸ List.mem_cons_self)
        · exact (ih h).imp_right (List.mem_cons_of_mem _)

theorem lt_of_not_lt_of_ne {a b : String} (h : ¬a < b) (h' : a ≠ b) : b < a := by
  rcases String.le_total a b with hle | hle
  · exact absurd (String.le_antisymm hle (String.not_lt.1 h)) h'
  · exact Classical.byContradiction fun hn =>
      h' (String.le_antisymm (String.not_lt.1 hn) hle)

theorem Sorted.insert {l : List (String × β)} (h : Sorted l) (k : String) (v : β) :
    Sorted (insert k v l) := by
  induction l with
  | nil => simp [insert_nil, Sorted]
  | cons a l ih =>
    obtain ⟨ha, hl⟩ := List.pairwise_cons.1 h
    rw [insert_cons]
    split
    · next hk =>
      refine List.pairwise_cons.2 ⟨fun e he => ?_, h⟩
      rcases List.mem_cons.1 he with rfl | he
      · exact hk
      · exact String.lt_trans hk (ha e he)
    · split
      · next hk => exact List.pairwise_cons.2 ⟨fun e he => by rw [hk]; exact ha e he, hl⟩
      · next hk hne =>
        refine List.pairwise_cons.2 ⟨fun e he => ?_, ih hl⟩
        rcases mem_insert he with rfl | he
        · exact lt_of_not_lt_of_ne hk hne
        · exact ha e he

theorem Sorted.erase {l : List (String × β)} (h : Sorted l) (k : String) : Sorted (erase k l) :=
  h.sublist List.filter_sublist

@[simp] theorem lookup_insert_self (k : String) (v : β) (l : List (String × β)) :
    lookup k (insert k v l) = some v := by
  induction l with
  | nil => simp [insert_nil, lookup_cons]
  | cons a l ih =>
    rw [insert_cons]
    split
    · simp [lookup_cons]
    · split
      · simp [lookup_cons]
      · next hne => simp [lookup_cons, Ne.symm hne, ih]

theorem lookup_insert_of_ne {k j : String} (h : j ≠ k) (v : β) (l : List (String × β)) :
    lookup j (insert k v l) = lookup j l := by
  induction l with
  | nil => simp [insert_nil, lookup_cons, Ne.symm h]
  | cons a l ih =>
    rw [insert_cons]
    split
    · simp [lookup_cons, Ne.symm h]
    · split
      · next hk => simp [lookup_cons, ← hk, Ne.symm h]
      · simp [lookup_cons, ih]

@[simp] theorem lookup_erase_self (k : String) (l : List (String × β)) :
    lookup k (erase k l) = none := by
  induction l with
  | nil => rfl
  | cons a l ih =>
    by_cases h : a.1 = k
    · simpa [erase, h] using ih
    · simpa [erase, h, lookup_cons] using ih

theorem lookup_erase_of_ne {k j : String} (h : j ≠ k) (l : List (String × β)) :
    lookup j (erase k l) = lookup j l := by
  induction l with
  | nil => rfl
  | cons a l ih =>
    by_cases hk : a.1 = k
    · have hkj : ¬k = j := Ne.symm h
      simpa [erase, hk, lookup_cons, hkj] using ih
    · by_cases hj : a.1 = j
      · simp [erase, lookup_cons, hj, h]
      · simpa [erase, hk, lookup_cons, hj] using ih

theorem mem_of_lookup {k : String} {v : β} {l : List (String × β)} (h : lookup k l = some v) :
    (k, v) ∈ l := by
  induction l with
  | nil => cases h
  | cons a l ih =>
    rw [lookup_cons] at h
    split at h
    · next hk =>
      obtain rfl := Option.some.inj h
      exact hk ▸ List.mem_cons_self
    · exact List.mem_cons_of_mem _ (ih h)

theorem Sorted.lookup_eq_some_iff {l : List (String × β)} (h : Sorted l) {k : String} {v : β} :
    lookup k l = some v ↔ (k, v) ∈ l := by
  refine ⟨mem_of_lookup, fun hm => ?_⟩
  induction l with
  | nil => cases hm
  | cons a l ih =>
    obtain ⟨ha, hl⟩ := List.pairwise_cons.1 h
    rcases List.mem_cons.1 hm with rfl | hm
    · simp [lookup_cons]
    · have hne : a.1 ≠ k := fun he =>
        String.lt_irrefl k (by simpa [he] using ha (k, v) hm)
      rw [lookup_cons, if_neg hne]
      exact ih hl hm

end Entries

/-- A finite map from text to `β`. -/
structure KeyMap (β : Type) where
  entries : List (String × β)
  sorted : Entries.Sorted entries
  deriving DecidableEq

namespace KeyMap

instance : EmptyCollection (KeyMap β) := ⟨⟨[], List.Pairwise.nil⟩⟩
instance : Inhabited (KeyMap β) := ⟨∅⟩

def get? (m : KeyMap β) (k : String) : Option β := Entries.lookup k m.entries

def insert (m : KeyMap β) (k : String) (v : β) : KeyMap β :=
  ⟨Entries.insert k v m.entries, m.sorted.insert k v⟩

def erase (m : KeyMap β) (k : String) : KeyMap β :=
  ⟨Entries.erase k m.entries, m.sorted.erase k⟩

/-- The keys, in increasing order. -/
def keys (m : KeyMap β) : List String := m.entries.map (·.1)

def values (m : KeyMap β) : List β := m.entries.map (·.2)

def size (m : KeyMap β) : Nat := m.entries.length

def isEmpty (m : KeyMap β) : Bool := m.entries.isEmpty

def contains (m : KeyMap β) (k : String) : Bool := (m.get? k).isSome

/-- Builds a map from a list of entries; of two entries with one key the later wins. -/
def ofList (l : List (String × β)) : KeyMap β :=
  l.foldl (fun m e => m.insert e.1 e.2) ∅

@[simp] theorem get?_empty (k : String) : (∅ : KeyMap β).get? k = none := rfl

@[simp] theorem get?_insert_self (m : KeyMap β) (k : String) (v : β) :
    (m.insert k v).get? k = some v :=
  Entries.lookup_insert_self k v m.entries

theorem get?_insert_of_ne (m : KeyMap β) {k j : String} (h : j ≠ k) (v : β) :
    (m.insert k v).get? j = m.get? j :=
  Entries.lookup_insert_of_ne h v m.entries

theorem get?_insert (m : KeyMap β) (k j : String) (v : β) :
    (m.insert k v).get? j = if j = k then some v else m.get? j := by
  split
  · next h => rw [h, get?_insert_self]
  · next h => exact get?_insert_of_ne m h v

@[simp] theorem get?_erase_self (m : KeyMap β) (k : String) : (m.erase k).get? k = none :=
  Entries.lookup_erase_self k m.entries

theorem get?_erase_of_ne (m : KeyMap β) {k j : String} (h : j ≠ k) :
    (m.erase k).get? j = m.get? j :=
  Entries.lookup_erase_of_ne h m.entries

theorem get?_erase (m : KeyMap β) (k j : String) :
    (m.erase k).get? j = if j = k then none else m.get? j := by
  split
  · next h => rw [h, get?_erase_self]
  · next h => exact get?_erase_of_ne m h

theorem mem_entries_iff (m : KeyMap β) {k : String} {v : β} :
    (k, v) ∈ m.entries ↔ m.get? k = some v :=
  m.sorted.lookup_eq_some_iff.symm

theorem mem_keys_iff (m : KeyMap β) {k : String} : k ∈ m.keys ↔ (m.get? k).isSome := by
  rw [Option.isSome_iff_exists, keys, List.mem_map]
  constructor
  · rintro ⟨⟨j, v⟩, hm, rfl⟩
    exact ⟨v, m.mem_entries_iff.1 hm⟩
  · rintro ⟨v, hv⟩
    exact ⟨(k, v), m.mem_entries_iff.2 hv, rfl⟩

theorem keys_sorted (m : KeyMap β) : m.keys.Pairwise (· < ·) := List.pairwise_map.2 m.sorted

end KeyMap

end ServiceMesh
