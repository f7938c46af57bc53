import ServiceMesh.Proofs.Store.Watcher
import ServiceMesh.Proofs.Text.Order

/-!
The scan as a range of keys. Keys are bytes to whoever keeps them: they stand in the order of their
bytes, and a scan goes through those that are not below the text looked for, until one does not
begin with it. It stops there, and still misses nothing.
-/

namespace ServiceMesh.Store

def begins (start : String) (e : String × Record) : Bool := Utf8.bytes start <+: Utf8.bytes e.1

def reaches (start : String) (e : String × Record) : Bool := ¬Utf8.bytes e.1 < Utf8.bytes start

variable {start : String} {l : List (String × Record)}

theorem begins_eq_isPrefixOf (start : String) (e : String × Record) :
    begins start e = start.toList.isPrefixOf e.1.toList := by
  rw [Bool.eq_iff_iff, begins, decide_eq_true_eq, Utf8.bytes_prefix_bytes_iff,
    List.isPrefixOf_iff_prefix]

theorem reaches_iff {e : String × Record} : reaches start e = true ↔ ¬e.1 < start := by
  rw [reaches, decide_eq_true_eq, Utf8.bytes_lt_bytes_iff]

theorem reaches_of_begins {e : String × Record} (h : begins start e = true) :
    reaches start e = true := by
  rw [begins_eq_isPrefixOf, List.isPrefixOf_iff_prefix] at h
  exact reaches_iff.2 (not_lt_of_isPrefix h)

/-- Where a range is left, all keys with the beginning are behind. -/
theorem takeWhile_filter_reaches (h : Entries.Sorted l) (start : String) :
    (l.filter (reaches start)).takeWhile (begins start) = l.filter (begins start) := by
  have hbegins : begins start = fun e => start.toList.isPrefixOf e.1.toList :=
    funext (begins_eq_isPrefixOf start)
  calc
    (l.filter (reaches start)).takeWhile (begins start)
    _ = (l.filter (reaches start)).filter (begins start) := by
      rw [hbegins]
      exact takeWhile_eq_filter (h.sublist List.filter_sublist) fun e he =>
        reaches_iff.1 (List.mem_filter.1 he).2
    _ = l.filter (begins start) := by
      rw [List.filter_filter]
      refine List.filter_congr fun e _ => ?_
      cases he : begins start e with
      | true => exact reaches_of_begins he
      | false => rfl

theorem entries_pairs (s : Store) (start : String) :
    (s.pairs start).entries =
      (s.records.entries.filter (begins start)).map fun e => (e.1, e.2.value) := by
  change scanFrom start s.records.entries = _
  rw [scanFrom_eq_filter s.records.sorted, ← funext (begins_eq_isPrefixOf start)]

/-- The scan finds the stored pairs whose keys begin with the text: all of them, each once and in
the order of their keys. It is the range from the text on, cut at the first key that does not begin
with it. A store that cannot be reached answers nothing. -/
theorem scan_finds_all (s : Store) (start : String) :
    let found := (s.records.entries.filter (begins start)).map fun e => (e.1, e.2.value)
    s.scan start = (if s.isAvailable then .ok found else .error .storeUnreachable) ∧
      (s.records.entries.filter (reaches start)).takeWhile (begins start) =
        s.records.entries.filter (begins start) ∧
      (∀ key value, (key, value) ∈ found ↔
        s.get? key = some value ∧ Utf8.bytes start <+: Utf8.bytes key) ∧
      found.Pairwise fun a b => Utf8.bytes a.1 < Utf8.bytes b.1 := by
  intro found
  have hfound : (s.pairs start).entries = found := s.entries_pairs start
  refine ⟨?_, takeWhile_filter_reaches s.records.sorted start, fun key value => ?_, ?_⟩
  · cases havail : s.isAvailable with
    | true => rw [scan_eq_pairs havail, hfound, if_pos rfl]
    | false => rw [scan, havail]; rfl
  · rw [← hfound, KeyMap.mem_entries_iff, get?_pairs, Utf8.bytes_prefix_bytes_iff,
      ← List.isPrefixOf_iff_prefix]
    split
    · next hp => simp [hp]
    · next hp => simp [hp]
  · rw [← hfound]
    exact (s.pairs start).sorted.imp Utf8.bytes_lt_bytes_iff.2

/-- Behind the largest character there is no next text to end a range at. -/
example :
    let last := String.singleton (Char.ofNat 0x10ffff)
    let records := KeyMap.ofList [("a", ⟨[1], none⟩), ("\uffff", ⟨[2], none⟩), (last, ⟨[3], none⟩),
      (last ++ "/", ⟨[4], none⟩)]
    ({ empty with records } : Store).scan last = .ok [(last, [3]), (last ++ "/", [4])] := by
  decide +kernel

end ServiceMesh.Store
