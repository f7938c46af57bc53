import Mathlib.Tactic.Common
import ServiceMesh.Gateway.Routing
import ServiceMesh.Http.Message
import ServiceMesh.Proofs.Http.Header

/-!
The route of a request and the three headers that carry it. A request is marked with the first route
whose path its own path begins with, if that route can be written in headers at all; of the three
headers that it came with nothing is left then.
-/

namespace ServiceMesh

def Route.IsWritable (r : Route) : Prop :=
  ∀ s ∈ [r.id, r.path, r.schema], Http.Header.isLegalValue (Utf8.bytes s) = true

instance (r : Route) : Decidable r.IsWritable :=
  inferInstanceAs (Decidable (∀ s ∈ [r.id, r.path, r.schema], _ = true))

namespace Routing

variable {routes : List Route} {path : String} {r : Route} {hs hs' : Http.Headers}

def IsFirstMatch (routes : List Route) (path : String) (r : Route) : Prop :=
  ∃ before after, routes = before ++ r :: after ∧ r.path.toList <+: path.toList ∧
    ∀ r' ∈ before, ¬r'.path.toList <+: path.toList

theorem matchRoute_eq_some_iff : matchRoute routes path = some r ↔ IsFirstMatch routes path r := by
  rw [matchRoute, List.find?_eq_some_iff_append, IsFirstMatch]
  simp only [List.isPrefixOf_iff_prefix, Bool.not_eq_true', Bool.eq_false_iff, ne_eq]
  constructor
  · rintro ⟨hr, before, after, he, hb⟩
    exact ⟨before, after, he, hr, hb⟩
  · rintro ⟨before, after, he, hr, hb⟩
    exact ⟨hr, before, after, he, hb⟩

def names : List String := [serviceHeader, pathHeader, schemaHeader]

/-- A request is marked by what it has beside the three headers alone. -/
theorem mark?_eq (r : Route) (hs : Http.Headers) :
    mark? r hs =
      if r.IsWritable then
        some (hs.without names ++ [⟨serviceHeader, Utf8.bytes r.id⟩,
          ⟨pathHeader, Utf8.bytes r.path⟩, ⟨schemaHeader, Utf8.bytes r.schema⟩])
      else none := by
  have herase : ((hs.erase serviceHeader).erase pathHeader).erase schemaHeader =
      hs.without names := by
    rw [Http.Headers.erase, Http.Headers.erase, Http.Headers.erase, Http.Headers.without,
      List.filter_filter, List.filter_filter]
    refine List.filter_congr fun h _ => ?_
    simp only [names, List.mem_cons, List.not_mem_nil, or_false, not_or, ne_eq, Bool.decide_and]
    ac_rfl
  have hset (v w x : List UInt8) : ((hs.set serviceHeader v).set pathHeader w).set schemaHeader x =
      hs.without names ++ [⟨serviceHeader, v⟩, ⟨pathHeader, w⟩, ⟨schemaHeader, x⟩] := by
    rw [← herase]
    simp [Http.Headers.set, Http.Headers.erase, serviceHeader, pathHeader, schemaHeader]
  rw [mark?, hset]
  by_cases h : r.IsWritable
  · rw [if_pos h, if_pos (List.all_eq_true.2 (by simpa [Route.IsWritable] using h))]
  · rw [if_neg h, if_neg (fun hall => h (by simpa [Route.IsWritable] using hall))]

theorem mark?_congr (h : hs.without names = hs'.without names) : mark? r hs = mark? r hs' := by
  rw [mark?_eq, mark?_eq, h]

/-- A mark touches nothing but its own headers. -/
theorem first?_mark? {name : String} (hname : name ∉ names) (h : mark? r hs = some hs') :
    hs'.first? name = hs.first? name := by
  obtain ⟨hservice, hpath, hschema⟩ :
      name ≠ serviceHeader ∧ name ≠ pathHeader ∧ name ≠ schemaHeader := by
    simpa [names] using hname
  rw [mark?] at h
  split at h
  · obtain rfl := Option.some.inj h
    rw [Http.Headers.first?_set_of_ne hschema, Http.Headers.first?_set_of_ne hpath,
      Http.Headers.first?_set_of_ne hservice]
  · cases h

/-- There is a first route for the path, and it can be written in headers. -/
def IsRoutable (routes : List Route) (path : String) : Prop :=
  ∃ r, IsFirstMatch routes path r ∧ r.IsWritable

theorem isRoutable_iff (hs : Http.Headers) :
    IsRoutable routes path ↔
      ((matchRoute routes path).bind fun r => mark? r hs).isSome = true := by
  simp only [IsRoutable, ← matchRoute_eq_some_iff, mark?_eq]
  cases matchRoute routes path with
  | none => simp
  | some r => by_cases h : r.IsWritable <;> simp [h]

end Routing

def Http.Request.unmarked (req : Http.Request) : Http.Request :=
  { req with headers := req.headers.without Routing.names }

end ServiceMesh
