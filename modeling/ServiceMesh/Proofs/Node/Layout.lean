import Mathlib.Data.Set.Function
import ServiceMesh.Proofs.Node.Key
import ServiceMesh.Proofs.Text.Order

/-!
The layout of the keys of nodes. Keys stand for pairs of a service and an identifier, one key for
each pair, and this is so for their bytes, too: the last slash among the bytes of a key is the last
slash of the key, so what lies on its two sides are texts again.
-/

namespace ServiceMesh.Node

/-- The pairs of a service and an identifier that have a key: neither is empty, and the identifier
has no slash. Services may have slashes in their names. -/
def pairs : Set (String × String) := {p | p.1 ≠ "" ∧ p.2 ≠ "" ∧ '/' ∉ p.2.toList}

def keys : Set String := {k | parseKey k ≠ none}

variable {k service id : String}

theorem parseKey_eq_some_iff_mem_pairs {p : String × String} :
    parseKey k = some p ↔ p ∈ pairs ∧ key p.1 p.2 = k := by
  rw [parseKey_eq_some_iff]
  constructor
  · rintro ⟨hs, hid, hslash, rfl⟩
    exact ⟨⟨hs, hid, hslash⟩, rfl⟩
  · rintro ⟨⟨hs, hid, hslash⟩, rfl⟩
    exact ⟨hs, hid, hslash, rfl⟩

theorem bijOn_parseKey : Set.BijOn parseKey keys (some '' pairs) := by
  refine ⟨fun k hk => ?_, fun k hk j _ hkj => ?_, ?_⟩
  · obtain ⟨p, hp⟩ := Option.ne_none_iff_exists'.1 hk
    exact ⟨p, (parseKey_eq_some_iff_mem_pairs.1 hp).1, hp.symm⟩
  · obtain ⟨p, hp⟩ := Option.ne_none_iff_exists'.1 hk
    exact parseKey_injective hp (hkj ▸ hp)
  · rintro _ ⟨p, hp, rfl⟩
    have hkey : parseKey (key p.1 p.2) = some p := parseKey_eq_some_iff_mem_pairs.2 ⟨hp, rfl⟩
    have hmem : key p.1 p.2 ∈ keys := fun hn => Option.some_ne_none p (hkey ▸ hn)
    exact ⟨key p.1 p.2, hmem, hkey⟩

/-- As long as identifiers have no slash, a key tells its pair, empty names included. -/
theorem key_injective {service' id' : String} (hid : '/' ∉ id.toList) (hid' : '/' ∉ id'.toList)
    (h : key service id = key service' id') : service = service' ∧ id = id' := by
  rw [← String.toList_inj, toList_key, toList_key, List.append_cancel_left_eq] at h
  have hcut := congrArg splitLast h
  rw [splitLast_append hid, splitLast_append hid'] at hcut
  obtain ⟨hs, hid⟩ := Prod.mk.inj (Option.some.inj hcut)
  exact ⟨String.toList_inj.1 hs, String.toList_inj.1 hid⟩

theorem parseKey_path_new_iff (service ip : String) (port : UInt16) :
    parseKey (new service ip port).path = some (service, (new service ip port).id) ↔
      service ≠ "" :=
  ⟨fun h => (parseKey_eq_some_iff.1 h).1, (isMade_new service ip port).parseKey_path⟩

/-! ### The bytes of a key -/

/-- The bytes are those of the beginning of all keys and of two parts with a slash between them, the
last one there is. Neither part is empty. -/
structure Cut (bs service id : List UInt8) : Prop where
  eq : bs = Utf8.bytes servicePrefix ++ (service ++ Ascii.slash :: id)
  service_ne_nil : service ≠ []
  id_ne_nil : id ≠ []
  slash_notMem : Ascii.slash ∉ id

theorem bytes_ne_nil_iff {s : String} : Utf8.bytes s ≠ [] ↔ s ≠ "" :=
  not_congr ⟨fun h => Utf8.bytes_injective (h.trans Utf8.bytes_empty.symm),
    fun h => h ▸ Utf8.bytes_empty⟩

theorem slash_mem_bytes_iff {s : String} : Ascii.slash ∈ Utf8.bytes s ↔ '/' ∈ s.toList := by
  refine ⟨fun h => ?_, Utf8.mem_bytes (by decide)⟩
  rw [Utf8.bytes_eq_flatMap, List.mem_flatMap] at h
  obtain ⟨d, hd, hmem⟩ := h
  have hd' : d = '/' := Utf8.eq_of_mem_utf8EncodeChar (by decide) hmem
  exact hd' ▸ hd

theorem bytes_key (service id : String) :
    Utf8.bytes (key service id) =
      Utf8.bytes servicePrefix ++ (Utf8.bytes service ++ Ascii.slash :: Utf8.bytes id) := by
  have hslash : Utf8.bytes "/" = [Ascii.slash] := by decide
  simp [key, hslash]

/-- Reading a key is cutting its bytes at the last slash. -/
theorem map_bytes_parseKey_iff {a b : List UInt8} :
    (parseKey k).map (fun p => (Utf8.bytes p.1, Utf8.bytes p.2)) = some (a, b) ↔
      Cut (Utf8.bytes k) a b := by
  rw [Option.map_eq_some_iff]
  constructor
  · rintro ⟨⟨service, id⟩, hk, heq⟩
    obtain ⟨rfl, rfl⟩ := Prod.mk.inj heq
    obtain ⟨hs, hid, hslash, rfl⟩ := parseKey_eq_some_iff.1 hk
    exact ⟨bytes_key service id, bytes_ne_nil_iff.2 hs, bytes_ne_nil_iff.2 hid,
      mt slash_mem_bytes_iff.1 hslash⟩
  · rintro ⟨heq, ha, hb, hslash⟩
    obtain ⟨rest, hrest⟩ := Utf8.bytes_prefix_bytes_iff.1 ⟨_, heq.symm⟩
    -- what comes after the beginning is cut as a text, since its bytes are
    have hbytes : rest.flatMap String.utf8EncodeChar = a ++ Ascii.slash :: b := by
      rw [Utf8.bytes_eq_flatMap, ← hrest, List.flatMap_append, ← Utf8.bytes_eq_flatMap] at heq
      exact List.append_cancel_left heq
    obtain ⟨s, i, rfl, rfl, rfl⟩ := Utf8.exists_of_flatMap_eq (c := '/') (by decide) hbytes
    rw [← Utf8.bytes_ofList] at ha hb hslash
    rw [bytes_ne_nil_iff] at ha hb
    refine ⟨(String.ofList s, String.ofList i), ?_, by rw [Utf8.bytes_ofList, Utf8.bytes_ofList]⟩
    refine parseKey_eq_some_iff.2 ⟨ha, hb, mt slash_mem_bytes_iff.2 hslash, ?_⟩
    rw [← String.toList_inj, toList_key, ← hrest, String.toList_ofList, String.toList_ofList]

/-! ### Keys and pairs -/

/-- A pair gives its key and gets it back from it, keys stand for these pairs one to one, and the
key of a node stands for the node if and only if its service has a name. The bytes of a key are
read alike. -/
theorem keys_tell_pairs :
    (∀ service id, service ≠ "" → id ≠ "" → '/' ∉ id.toList →
      parseKey (key service id) = some (service, id)) ∧
    (∀ k service id, parseKey k = some (service, id) →
      service ≠ "" ∧ id ≠ "" ∧ '/' ∉ id.toList ∧ key service id = k) ∧
    Set.BijOn parseKey keys (some '' pairs) ∧
    (∀ service id service' id', '/' ∉ id.toList → '/' ∉ id'.toList →
      key service id = key service' id' → service = service' ∧ id = id') ∧
    (∀ service ip port,
      parseKey (new service ip port).path = some (service, (new service ip port).id) ↔
        service ≠ "") ∧
    ∀ k a b, (parseKey k).map (fun p => (Utf8.bytes p.1, Utf8.bytes p.2)) = some (a, b) ↔
      Cut (Utf8.bytes k) a b := by
  refine ⟨fun service id hs hid hslash => ?_, fun k service id hk => ?_, bijOn_parseKey,
    fun _ _ _ _ => key_injective, parseKey_path_new_iff, fun _ _ _ => map_bytes_parseKey_iff⟩
  · exact parseKey_eq_some_iff.2 ⟨hs, hid, hslash, rfl⟩
  · obtain ⟨⟨hs, hid, hslash⟩, hkey⟩ := parseKey_eq_some_iff_mem_pairs.1 hk
    exact ⟨hs, hid, hslash, hkey⟩

/-- A service with slashes in its name, some of them side by side, and characters of several
bytes. -/
theorem keys_tell_pairs_nested :
    let service := "/größe//日本/"
    let id := "é1"
    (service ≠ "" ∧ id ≠ "" ∧ '/' ∉ id.toList) ∧
      parseKey "/servers//größe//日本//é1" = some (service, id) ∧
      key service id = "/servers//größe//日本//é1" := by
  intro service id
  have hid : '/' ∉ id.toList := by decide
  obtain ⟨hparse, hkey, -⟩ := keys_tell_pairs
  have hsome : parseKey (key service id) = some (service, id) :=
    hparse service id (by decide) (by decide) hid
  exact ⟨⟨by decide, by decide, hid⟩, hsome, (hkey _ service id hsome).2.2.2⟩

end ServiceMesh.Node
