import Mathlib.Tactic.Common
import ServiceMesh.Node

/-!
The keys of nodes. A key is cut at its last slash, so an identifier has no slash in it, and the
pair of a service and an identifier that a key stands for gives the key back.
-/

namespace ServiceMesh

theorem Hex.digit_ne_slash {n : Nat} (h : n < 16) : digit n ≠ '/' := by
  have hall : ∀ m : Fin 16, digit m ≠ '/' := by decide
  exact hall ⟨n, h⟩

theorem Hex.slash_notMem_ofBytes (bs : List UInt8) : '/' ∉ (ofBytes bs).toList := by
  rw [ofBytes, String.toList_ofList, List.mem_flatMap]
  rintro ⟨b, -, hb⟩
  have hlt := b.toNat_lt
  simp only [List.mem_cons, List.not_mem_nil, or_false] at hb
  rcases hb with hb | hb
  · exact digit_ne_slash (by omega) hb.symm
  · exact digit_ne_slash (by omega) hb.symm

namespace Node

theorem splitLast_eq_none_iff {l : List Char} : splitLast l = none ↔ '/' ∉ l := by
  induction l with
  | nil => simp [splitLast]
  | cons c l ih =>
      rw [splitLast]
      split
      · next h =>
          have hl : '/' ∈ l := by
            by_contra hn
            rw [ih.2 hn] at h
            cases h
          simp [hl]
      · next h =>
          have hl := ih.1 h
          by_cases hc : c = '/'
          · simp [hc]
          · simp [hc, hl, Ne.symm hc]

theorem splitLast_append {a b : List Char} (hb : '/' ∉ b) :
    splitLast (a ++ '/' :: b) = some (a, b) := by
  induction a with
  | nil => simp [splitLast, splitLast_eq_none_iff.2 hb]
  | cons c a ih => simp [splitLast, ih]

theorem splitLast_eq_some_iff {l a b : List Char} :
    splitLast l = some (a, b) ↔ l = a ++ '/' :: b ∧ '/' ∉ b := by
  refine ⟨fun h => ?_, fun h => h.1 ▸ splitLast_append h.2⟩
  induction l generalizing a b with
  | nil => cases h
  | cons c l ih =>
      rw [splitLast] at h
      split at h
      · next service id hs =>
          obtain ⟨rfl, rfl⟩ := Prod.mk.inj (Option.some.inj h)
          obtain ⟨rfl, hb⟩ := ih hs
          exact ⟨rfl, hb⟩
      · next hs =>
          split at h
          · next hc =>
              obtain ⟨rfl, rfl⟩ := Prod.mk.inj (Option.some.inj h)
              exact ⟨by rw [hc]; rfl, splitLast_eq_none_iff.1 hs⟩
          · cases h

theorem toList_key (service id : String) :
    (key service id).toList = servicePrefix.toList ++ (service.toList ++ '/' :: id.toList) := by
  simp [key, String.toList_append]

/-- A key stands for a service and an identifier exactly when it is made of them, neither is empty
and the identifier has no slash. -/
theorem parseKey_eq_some_iff {k service id : String} :
    parseKey k = some (service, id) ↔
      service ≠ "" ∧ id ≠ "" ∧ '/' ∉ id.toList ∧ k = key service id := by
  have empty_iff (s : String) : s = "" ↔ s.toList = [] := by
    rw [← String.toList_inj]
    rfl
  rw [parseKey]
  constructor
  · intro h
    split at h
    · next hstart =>
        obtain ⟨rest, hrest⟩ := List.isPrefixOf_iff_prefix.1 hstart
        rw [← hrest, List.drop_left] at h
        split at h
        · next a b hs =>
            split at h
            · cases h
            · next hne =>
                obtain ⟨rfl, rfl⟩ := Prod.mk.inj (Option.some.inj h)
                obtain ⟨rfl, hb⟩ := splitLast_eq_some_iff.1 hs
                obtain ⟨ha, hb'⟩ := not_or.1 hne
                refine ⟨?_, ?_, ?_, ?_⟩
                · rwa [Ne, empty_iff, String.toList_ofList]
                · rwa [Ne, empty_iff, String.toList_ofList]
                · rwa [String.toList_ofList]
                · rw [← String.toList_inj, toList_key, ← hrest]
                  simp [String.toList_ofList]
        · cases h
    · cases h
  · rintro ⟨hs, hid, hslash, rfl⟩
    have hstart : servicePrefix.toList.isPrefixOf (key service id).toList = true :=
      List.isPrefixOf_iff_prefix.2 ⟨_, (toList_key service id).symm⟩
    rw [if_pos hstart, toList_key, List.drop_left, splitLast_append hslash]
    rw [Ne, empty_iff] at hs hid
    simp [hs, hid, String.ofList_toList]

theorem parseKey_injective {k j service id : String} (hk : parseKey k = some (service, id))
    (hj : parseKey j = some (service, id)) : k = j := by
  rw [(parseKey_eq_some_iff.1 hk).2.2.2, (parseKey_eq_some_iff.1 hj).2.2.2]

/-- Only keys that begin with the prefix of nodes stand for anything. -/
theorem isPrefixOf_of_parseKey {k : String} {p : String × String} (h : parseKey k = some p) :
    servicePrefix.toList.isPrefixOf k.toList = true := by
  rw [parseKey] at h
  split at h
  · assumption
  · cases h

/-! ### The keys of the nodes that are made for an address -/

theorem slash_notMem_idOf (ip : String) (port : UInt16) : '/' ∉ (idOf ip port).toList :=
  Hex.slash_notMem_ofBytes _

theorem idOf_ne_empty (ip : String) (port : UInt16) : idOf ip port ≠ "" := by
  obtain ⟨b, bs, hb⟩ : ∃ b bs, (Sha256.digest (Utf8.bytes (address ip port))).take 16 = b :: bs :=
    ⟨_, _, rfl⟩
  rw [idOf, hb, Hex.ofBytes, Ne, ← String.toList_inj, String.toList_ofList]
  exact List.cons_ne_nil _ _

/-- The identifier is the digest of the address, and the key is that of the service and the
identifier. -/
structure IsMade (n : Node) : Prop where
  id : n.id = idOf n.ip n.port
  path : n.path = key n.service n.id

instance (n : Node) : Decidable n.IsMade :=
  decidable_of_iff (n.id = idOf n.ip n.port ∧ n.path = key n.service n.id)
    ⟨fun h => ⟨h.1, h.2⟩, fun h => ⟨h.id, h.path⟩⟩

theorem isMade_new (service ip : String) (port : UInt16) : (new service ip port).IsMade :=
  ⟨rfl, rfl⟩

theorem IsMade.withInfo {n : Node} (h : n.IsMade) (k v : String) : (n.withInfo k v).IsMade :=
  ⟨h.id, h.path⟩

/-- The key of a node of a named service stands for the node. -/
theorem IsMade.parseKey_path {n : Node} (h : n.IsMade) (hs : n.service ≠ "") :
    parseKey n.path = some (n.service, n.id) := by
  rw [parseKey_eq_some_iff, h.id]
  exact ⟨hs, idOf_ne_empty _ _, slash_notMem_idOf _ _, by rw [h.path, h.id]⟩

end Node

end ServiceMesh
