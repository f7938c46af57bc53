import ServiceMesh.Http.Header

/-! What is read from headers after some of them were left out, replaced or added. -/

namespace ServiceMesh.Http.Headers

variable {name name' : String} {names : List String}

def without (hs : Headers) (names : List String) : Headers := hs.filter fun h => h.name ∉ names

theorem without_append (hs hs' : Headers) (names : List String) :
    without (hs ++ hs') names = hs.without names ++ hs'.without names :=
  List.filter_append hs hs'

theorem without_erase (hs : Headers) (name : String) (names : List String) :
    (hs.erase name).without names = (hs.without names).erase name := by
  rw [without, erase, without, erase, List.filter_filter, List.filter_filter]
  exact List.filter_congr fun h _ => Bool.and_comm _ _

/-- Leaving out more names than one is leaving out that one first. -/
theorem erase_without_of_mem (h : name ∈ names) (hs : Headers) :
    (hs.without names).erase name = hs.without names := by
  rw [without, erase, List.filter_filter]
  refine List.filter_congr fun x _ => ?_
  by_cases hx : x.name = name
  · simp [hx, h]
  · simp [hx]

/-- A header that is left out afterwards might as well not have been written. -/
theorem without_set_of_mem (h : name ∈ names) (hs : Headers) (value : List UInt8) :
    (hs.set name value).without names = hs.without names := by
  have hlast : without [⟨name, value⟩] names = [] := by simp [without, h]
  rw [set, without_append, without_erase, erase_without_of_mem h, hlast, List.append_nil]

theorem without_set_of_notMem (h : name ∉ names) (hs : Headers) (value : List UInt8) :
    (hs.set name value).without names = (hs.without names).set name value := by
  have hlast : without [⟨name, value⟩] names = [⟨name, value⟩] := by simp [without, h]
  rw [set, without_append, without_erase, hlast, set]

theorem values_without (h : name ∉ names) (hs : Headers) :
    (hs.without names).values name = hs.values name := by
  rw [values, values, without, List.filter_filter]
  congr 1
  refine List.filter_congr fun x _ => ?_
  by_cases hx : x.name = name
  · simp [hx, h]
  · simp [hx]

theorem text?_without (h : name ∉ names) (hs : Headers) :
    (hs.without names).text? name = hs.text? name := by
  rw [text?, text?, first?, first?, values_without h]

theorem values_set_of_ne (h : name' ≠ name) (hs : Headers) (value : List UInt8) :
    (hs.set name value).values name' = hs.values name' := by
  have hnot : name' ∉ [name] := by simpa using h
  have hset : (hs.set name value).without [name] = hs.without [name] :=
    without_set_of_mem (List.mem_singleton_self name) hs value
  rw [← values_without hnot, hset, values_without hnot]

theorem first?_set_of_ne (h : name' ≠ name) (hs : Headers) (value : List UInt8) :
    (hs.set name value).first? name' = hs.first? name' := by
  rw [first?, values_set_of_ne h, first?]

/-- Of two values that are set one after the other the second remains. -/
theorem set_set (hs : Headers) (name : String) (value value' : List UInt8) :
    (hs.set name value).set name value' = hs.set name value' := by
  have herase : (hs.set name value).erase name = hs.erase name := by
    simp [set, erase]
  rw [set, herase, ← set]

theorem values_append (hs hs' : Headers) (name : String) :
    values (hs ++ hs') name = hs.values name ++ hs'.values name := by
  rw [values, List.filter_append, List.map_append, values, values]

theorem values_singleton (h : Header) (name : String) :
    values [h] name = if h.name = name then [h.value] else [] := by
  by_cases hname : h.name = name
  · simp [values, hname]
  · simp [values, hname]

/-- A filter by names keeps all values of a name or none. -/
theorem values_filter (hs : Headers) (keep : String → Bool) (name : String) :
    values (hs.filter fun h => keep h.name) name = if keep name then hs.values name else [] := by
  rw [values, values, List.filter_filter]
  cases hkeep : keep name with
  | true =>
      rw [if_pos rfl]
      congr 1
      refine List.filter_congr fun x _ => ?_
      by_cases hx : x.name = name
      · simp [hx, hkeep]
      · simp [hx]
  | false =>
      rw [if_neg Bool.false_ne_true, List.map_eq_nil_iff, List.filter_eq_nil_iff]
      intro x _ hx
      obtain ⟨hname, hx⟩ : x.name = name ∧ keep x.name = true := by simpa using hx
      rw [hname, hkeep] at hx
      cases hx

theorem values_set_self (hs : Headers) (name : String) (value : List UInt8) :
    (hs.set name value).values name = [value] := by
  have herase : (hs.erase name).values name = [] := by
    rw [erase]
    simpa using values_filter hs (fun n => n ≠ name) name
  rw [set, values_append, herase, values_singleton, if_pos rfl]
  rfl

theorem first?_set_self (hs : Headers) (name : String) (value : List UInt8) :
    (hs.set name value).first? name = some value := by
  rw [first?, values_set_self]
  rfl

theorem first?_eq_none {hs : Headers} (h : ∀ x ∈ hs, x.name ≠ name) : hs.first? name = none := by
  have hempty : hs.filter (fun x => x.name = name) = [] := by simpa using h
  rw [first?, values, hempty]
  rfl

end ServiceMesh.Http.Headers
