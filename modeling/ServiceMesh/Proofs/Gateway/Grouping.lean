import ServiceMesh.Gateway.Query
import ServiceMesh.Proofs.Keyed

/-!
Queries as objects. The object of a query has one member for each name, and nothing of the query is
lost in it but the order in which pairs of different names come: the values of each name can be taken
out again in their order.
-/

namespace ServiceMesh.Query

variable {name : String} {pairs pairs' : List (String × String)} {members : List (String × Json)}

def valuesOf (name : String) (pairs : List (String × String)) : List String :=
  (pairs.filter fun p => p.1 = name).map (·.2)

/-- The two lists have the same values of each name in the same order. They may differ in how pairs
of different names are interleaved. -/
def Agree (pairs pairs' : List (String × String)) : Prop :=
  ∀ name, valuesOf name pairs = valuesOf name pairs'

theorem valuesOf_append (name : String) (pairs pairs' : List (String × String)) :
    valuesOf name (pairs ++ pairs') = valuesOf name pairs ++ valuesOf name pairs' := by
  rw [valuesOf, List.filter_append, List.map_append, valuesOf, valuesOf]

theorem valuesOf_map (name key : String) (values : List String) :
    valuesOf name (values.map fun v => (key, v)) = if key = name then values else [] := by
  by_cases h : key = name
  · simp [valuesOf, List.filter_map, Function.comp_def, h]
  · simp [valuesOf, List.filter_map, Function.comp_def, h]

theorem valuesOf_ne_nil_iff : valuesOf name pairs ≠ [] ↔ name ∈ pairs.map (·.1) := by
  simp [valuesOf, List.filter_eq_nil_iff]

/-! ### The members of an object -/

/-- What an object has under a name with these values. -/
def member? : List String → Option Json
  | [] => none
  | [v] => some (.str v)
  | values => some (.arr (values.map .str))

def valuesIn : Json → List String
  | .str v => [v]
  | .arr items => items.filterMap Json.str?
  | _ => []

theorem map_valuesIn_member? (values : List String) :
    ((member? values).map valuesIn).getD [] = values := by
  match values with
  | [] => rfl
  | [v] => rfl
  | v :: w :: values => simp [member?, valuesIn, Json.str?, Function.comp_def]

theorem member?_injective {values values' : List String} (h : member? values = member? values') :
    values = values' := by
  rw [← map_valuesIn_member? values, h, map_valuesIn_member?]

/-- One more value makes an array of a text, and an array longer. -/
theorem member?_concat (values : List String) (v : String) :
    member? (values ++ [v]) = some (match member? values with
      | none => .str v
      | some (.arr items) => .arr (items ++ [.str v])
      | some first => .arr [first, .str v]) := by
  match values with
  | [] => rfl
  | [w] => rfl
  | w :: x :: values => simp [member?]

/-! ### Adding pairs one by one -/

/-- The members are those of an object with these values of each name. -/
structure Holds (members : List (String × Json)) (values : String → List String) : Prop where
  sorted : Entries.Sorted members
  lookup_eq : ∀ name, Entries.lookup name members = member? (values name)

theorem Holds.add {values : String → List String} (h : Holds members values)
    (pair : String × String) :
    Holds (add members pair) fun name => values name ++ valuesOf name [pair] := by
  obtain ⟨key, v⟩ := pair
  refine ⟨h.sorted.insert _ _, fun name => ?_⟩
  by_cases hname : key = name
  · subst hname
    have hone : valuesOf key [(key, v)] = [v] := by simp [valuesOf]
    rw [Query.add, Entries.lookup_insert_self, hone, h.lookup_eq]
    exact (member?_concat _ v).symm
  · have hnone : valuesOf name [(key, v)] = [] := by simp [valuesOf, hname]
    rw [Query.add, Entries.lookup_insert_of_ne (Ne.symm hname), hnone, List.append_nil, h.lookup_eq]

/-- The pairs of a query are added on top of what there is. -/
theorem Holds.foldl_add {values : String → List String} (h : Holds members values)
    (pairs : List (String × String)) :
    Holds (pairs.foldl Query.add members) fun name => values name ++ valuesOf name pairs := by
  induction pairs generalizing members values with
  | nil => simpa [valuesOf] using h
  | cons pair pairs ih =>
      rw [List.foldl_cons]
      have hall := ih (h.add pair)
      simpa only [List.append_assoc, ← valuesOf_append, List.singleton_append] using hall

/-- The object of a list of pairs has a member for each of their names. -/
theorem exists_ofPairs_eq (pairs : List (String × String)) :
    ∃ m : KeyMap Json, ofPairs pairs = .obj m.entries ∧
      ∀ name, m.get? name = member? (valuesOf name pairs) := by
  have hempty : Holds [] fun _ => [] := ⟨List.Pairwise.nil, fun _ => rfl⟩
  have h := hempty.foldl_add pairs
  exact ⟨⟨_, h.sorted⟩, rfl, h.lookup_eq⟩

theorem ofPairs_eq_iff : ofPairs pairs = ofPairs pairs' ↔ Agree pairs pairs' := by
  obtain ⟨m, hm, hget⟩ := exists_ofPairs_eq pairs
  obtain ⟨m', hm', hget'⟩ := exists_ofPairs_eq pairs'
  rw [hm, hm']
  constructor
  · intro h name
    have hentries : m.entries = m'.entries := Json.obj.inj h
    refine member?_injective ?_
    rw [← hget, ← hget', KeyMap.get?, KeyMap.get?, hentries]
  · intro h
    have hmaps : m = m' := KeyMap.ext_get? fun name => by rw [hget, hget', h name]
    rw [hmaps]

/-! ### Taking the pairs out again -/

def pairsIn : Json → List (String × String)
  | .obj members => members.flatMap fun e => (valuesIn e.2).map fun v => (e.1, v)
  | _ => []

theorem valuesOf_pairsIn (h : Entries.Sorted members) (name : String) :
    valuesOf name (pairsIn (.obj members)) =
      ((Entries.lookup name members).map valuesIn).getD [] := by
  induction members with
  | nil => rfl
  | cons e members ih =>
      obtain ⟨hfirst, hmore⟩ := List.pairwise_cons.1 h
      have hrest := ih hmore
      rw [pairsIn] at hrest
      rw [pairsIn, List.flatMap_cons, valuesOf_append, hrest, valuesOf_map, Entries.lookup_cons]
      by_cases hname : e.1 = name
      · -- the name does not come again
        have hnone : Entries.lookup name members = none := by
          rw [Option.eq_none_iff_forall_not_mem]
          intro v hv
          have hlater : e.1 < name := hfirst (name, v) (Entries.mem_of_lookup hv)
          exact String.lt_irrefl name (hname ▸ hlater)
        rw [if_pos hname, if_pos hname, hnone]
        simp
      · rw [if_neg hname, if_neg hname, List.nil_append]

theorem agree_pairsIn_ofPairs (pairs : List (String × String)) :
    Agree (pairsIn (ofPairs pairs)) pairs := by
  obtain ⟨m, hm, hget⟩ := exists_ofPairs_eq pairs
  intro name
  rw [hm, valuesOf_pairsIn m.sorted, show Entries.lookup name m.entries = m.get? name from rfl, hget,
    map_valuesIn_member?]

/-- The query of an address that can be read becomes an object with the names of its pairs as keys.
A name that occurs once has its value there, as a text, and any other name has the array of its
values in their order. All pairs can be taken out of the object again, in their order but for that
of different names; so two queries become the same object exactly if they have the same values of
each name in the same order. -/
theorem toJson_grouped {uri : String} (h : pairs? uri = some pairs) :
    (∃ m : KeyMap Json, toJson uri = .obj m.entries ∧
      (∀ name, name ∈ m.keys ↔ name ∈ pairs.map (·.1)) ∧
      (∀ name v, valuesOf name pairs = [v] → m.get? name = some (.str v)) ∧
      ∀ name, 2 ≤ (valuesOf name pairs).length →
        m.get? name = some (.arr ((valuesOf name pairs).map .str))) ∧
    Agree (pairsIn (toJson uri)) pairs ∧
    ∀ uri' pairs', pairs? uri' = some pairs' → (toJson uri = toJson uri' ↔ Agree pairs pairs') := by
  have hobject {uri pairs} (h : pairs? uri = some pairs) : toJson uri = ofPairs pairs := by
    rw [toJson, h, Option.getD_some]
  rw [hobject h]
  refine ⟨?_, agree_pairsIn_ofPairs pairs, fun uri' pairs' h' => ?_⟩
  · obtain ⟨m, hm, hget⟩ := exists_ofPairs_eq pairs
    refine ⟨m, hm, fun name => ?_, fun name v hv => ?_, fun name hlong => ?_⟩
    · rw [m.mem_keys_iff, hget, ← valuesOf_ne_nil_iff]
      match valuesOf name pairs with
      | [] => simp [member?]
      | [v] => simp [member?]
      | v :: w :: values => simp [member?]
    · rw [hget, hv, member?]
    · rw [hget]
      match hvalues : valuesOf name pairs with
      | [] => simp [hvalues] at hlong
      | [v] => simp [hvalues] at hlong
      | v :: w :: values => rfl
  · rw [hobject h', ofPairs_eq_iff]

/-- A name that occurs twice, around another one. Its values have their order in the object, and
where the other name stands does not count. -/
theorem toJson_grouped_around :
    let uri := "/a?x=1&y=hello%20world&x=2"
    (∃ m : KeyMap Json, toJson uri = .obj m.entries ∧ (∀ name, name ∈ m.keys ↔ name ∈ ["x", "y", "x"]) ∧
      m.get? "x" = some (.arr [.str "1", .str "2"]) ∧ m.get? "y" = some (.str "hello world")) ∧
    toJson uri = toJson "http://gw/b?y=hello+world&x=1&x=2" ∧
    toJson uri ≠ toJson "/a?x=2&y=hello%20world&x=1" := by
  intro uri
  have hpairs : pairs? uri = some [("x", "1"), ("y", "hello world"), ("x", "2")] := by
    decide +kernel
  have hsame : pairs? "http://gw/b?y=hello+world&x=1&x=2" =
      some [("y", "hello world"), ("x", "1"), ("x", "2")] := by decide +kernel
  have hother : pairs? "/a?x=2&y=hello%20world&x=1" =
      some [("x", "2"), ("y", "hello world"), ("x", "1")] := by decide +kernel
  obtain ⟨⟨m, hm, hkeys, hone, hmany⟩, -, heq⟩ := toJson_grouped hpairs
  refine ⟨⟨m, hm, hkeys, hmany "x" (by decide), hone "y" _ (by decide)⟩, ?_, ?_⟩
  · refine (heq _ _ hsame).2 fun name => ?_
    by_cases hx : "x" = name
    · subst hx
      decide
    · by_cases hy : "y" = name
      · subst hy
        decide
      · simp [valuesOf, hx, hy]
  · rw [ne_eq, heq _ _ hother]
    intro h
    exact absurd (h "x") (by decide)

end ServiceMesh.Query
