import Mathlib.Data.List.TakeWhile
import Mathlib.Tactic.Common
import ServiceMesh.Gateway.Server
import ServiceMesh.Proofs.Gateway.Dispatcher

/-!
Which adapter a path leads to. Paths and adapters meet in their keys: the key of a path is its
beginning, two segments with slashes around them, and of the adapters with this key the one that was
added last is called. So an adapter is out of reach of all paths if one of its two names is no
segment, or if another adapter with its key was added after it.
-/

namespace ServiceMesh

namespace Routing

/-- A text that stands between two slashes of a path. -/
def IsSegment (s : String) : Prop := s ≠ "" ∧ '/' ∉ s.toList

instance (s : String) : Decidable (IsSegment s) := inferInstanceAs (Decidable (_ ∧ _))

def keyOf (first second : String) : String := "/" ++ first ++ "/" ++ second ++ "/"

/-- The path begins with the key, which is made of two segments. -/
def IsKeyOf (path k : String) : Prop :=
  ∃ first second rest, IsSegment first ∧ IsSegment second ∧ k = keyOf first second ∧
    path = k ++ rest

variable {path k k' : String}

theorem toList_keyOf (first second : String) :
    (keyOf first second).toList = '/' :: (first.toList ++ '/' :: (second.toList ++ ['/'])) := by
  simp [keyOf]

theorem takeWhile_append_slash {front : List Char} (h : '/' ∉ front) (rest : List Char) :
    (front ++ '/' :: rest).takeWhile (· ≠ '/') = front := by
  have hfront : ∀ c ∈ front, decide (c ≠ '/') = true := by
    intro c hc
    simpa using fun he : c = '/' => h (he ▸ hc)
  rw [List.takeWhile_append_of_pos hfront, List.takeWhile_cons_of_neg (by simp), List.append_nil]

theorem slash_notMem_takeWhile (cs : List Char) : '/' ∉ cs.takeWhile (· ≠ '/') :=
  fun h => by simpa using List.mem_takeWhile_imp h

theorem append_slash_of_drop {cs rest : List Char}
    (h : cs.drop (cs.takeWhile (· ≠ '/')).length = '/' :: rest) :
    cs.takeWhile (· ≠ '/') ++ '/' :: rest = cs := by
  rw [← h]
  exact List.prefix_iff_eq_append.1 (List.takeWhile_prefix _)

theorem routingKey_eq_some_iff : routingKey path = some k ↔ IsKeyOf path k := by
  constructor
  · intro h
    rw [routingKey.eq_def] at h
    split at h
    · next cs hpath =>
        dsimp only at h
        split at h
        · next cs' hfirst =>
            split at h
            · next rest hsecond =>
                split at h
                · cases h
                · next hne =>
                    obtain ⟨hne, hne'⟩ := not_or.1 hne
                    obtain rfl := Option.some.inj h
                    refine ⟨String.ofList (cs.takeWhile (· ≠ '/')),
                      String.ofList (cs'.takeWhile (· ≠ '/')), String.ofList rest,
                      ⟨by simpa using hne, by simpa using slash_notMem_takeWhile cs⟩,
                      ⟨by simpa using hne', by simpa using slash_notMem_takeWhile cs'⟩, ?_, ?_⟩
                    · rw [← String.toList_inj, toList_keyOf]
                      simp
                    · rw [← String.toList_inj, hpath]
                      conv_lhs =>
                        rw [← append_slash_of_drop hfirst, ← append_slash_of_drop hsecond]
                      simp
            · cases h
        · cases h
    · cases h
  · rintro ⟨first, second, rest, ⟨hne, hslash⟩, ⟨hne', hslash'⟩, rfl, rfl⟩
    have hpath : (keyOf first second ++ rest).toList =
        '/' :: (first.toList ++ '/' :: (second.toList ++ '/' :: rest.toList)) := by
      rw [String.toList_append, toList_keyOf]
      simp
    have hkey : keyOf first second =
        String.ofList ('/' :: first.toList ++ '/' :: second.toList ++ ['/']) := by
      rw [← String.toList_inj, toList_keyOf]
      simp
    simp only [routingKey.eq_def, hpath, takeWhile_append_slash hslash,
      takeWhile_append_slash hslash', List.drop_left]
    rw [if_neg (by simpa using ⟨hne, hne'⟩), hkey]

/-- A path has one key at most. -/
theorem IsKeyOf.unique (h : IsKeyOf path k) (h' : IsKeyOf path k') : k = k' :=
  Option.some.inj
    ((routingKey_eq_some_iff.2 h).symm.trans (routingKey_eq_some_iff.2 h'))

/-- A key that is made of two segments tells them. -/
theorem keyOf_injective {first second first' second' : String} (hfirst : IsSegment first')
    (hsecond : IsSegment second') (h : keyOf first second = keyOf first' second') :
    first = first' ∧ second = second' := by
  have hlists : first.toList ++ '/' :: (second.toList ++ ['/']) =
      first'.toList ++ '/' :: (second'.toList ++ ['/']) := by
    have hkeys := congrArg String.toList h
    rw [toList_keyOf, toList_keyOf] at hkeys
    exact (List.cons.inj hkeys).2
  -- there is no room for a slash beside the two behind the segments
  have hcount := congrArg (List.count '/') hlists
  simp only [List.count_append, List.count_cons_self, List.count_nil,
    List.count_eq_zero.2 hfirst.2, List.count_eq_zero.2 hsecond.2] at hcount
  have hslash : '/' ∉ first.toList := List.count_eq_zero.1 (by omega)
  have hfront := congrArg (List.takeWhile (· ≠ '/')) hlists
  rw [takeWhile_append_slash hslash, takeWhile_append_slash hfirst.2] at hfront
  rw [hfront] at hlists
  have hback := (List.cons.inj (List.append_cancel_left hlists)).2
  exact ⟨String.toList_inj.1 hfront, String.toList_inj.1 (List.append_cancel_right hback)⟩

/-- The keys of paths are those that are made of two segments. -/
theorem exists_isKeyOf_keyOf_iff {first second : String} :
    (∃ path, IsKeyOf path (keyOf first second)) ↔ IsSegment first ∧ IsSegment second := by
  constructor
  · rintro ⟨-, first', second', -, hfirst, hsecond, hkey, -⟩
    obtain ⟨rfl, rfl⟩ := keyOf_injective hfirst hsecond hkey
    exact ⟨hfirst, hsecond⟩
  · rintro ⟨hfirst, hsecond⟩
    exact ⟨keyOf first second, first, second, "", hfirst, hsecond, rfl, by simp⟩

end Routing

namespace Gateway

open Gateway.Flow

variable {adapters before after : List Adapter} {a : Adapter} {path key : String}

theorem Adapter.key_eq (a : Adapter) : a.key = Routing.keyOf a.balancer (Case.lower a.service) := rfl

/-! ### Adapters and their keys -/

/-- Among adapters, in the order in which they were added, this one is the last with its key. -/
def IsLast (adapters : List Adapter) (a : Adapter) : Prop :=
  ∃ before after, adapters = before ++ a :: after ∧ ∀ b ∈ after, b.key ≠ a.key

theorem findAdapter_eq_some_iff :
    findAdapter adapters key = some a ↔ IsLast adapters a ∧ a.key = key := by
  rw [findAdapter, List.find?_eq_some_iff_append]
  constructor
  · rintro ⟨hkey, later, earlier, hsplit, hlater⟩
    obtain rfl : a.key = key := of_decide_eq_true hkey
    refine ⟨⟨earlier.reverse, later.reverse, ?_, fun b hb => ?_⟩, rfl⟩
    · simpa using congrArg List.reverse hsplit
    · simpa using hlater b (List.mem_reverse.1 hb)
  · rintro ⟨⟨before, after, rfl, hafter⟩, rfl⟩
    refine ⟨decide_eq_true rfl, after.reverse, before.reverse, by simp, fun b hb => ?_⟩
    simpa using hafter b (List.mem_reverse.1 hb)

theorem findAdapter_eq_none_iff :
    findAdapter adapters key = none ↔ ∀ a ∈ adapters, a.key ≠ key := by
  simp [findAdapter]

/-! ### The adapter for a path -/

def adapterFor (adapters : List Adapter) (path : String) : Option Adapter :=
  (Routing.routingKey path).bind (findAdapter adapters)

theorem adapterFor_eq_some_iff :
    adapterFor adapters path = some a ↔ IsLast adapters a ∧ Routing.IsKeyOf path a.key := by
  rw [adapterFor, Option.bind_eq_some_iff]
  simp only [findAdapter_eq_some_iff, Routing.routingKey_eq_some_iff]
  constructor
  · rintro ⟨-, hkey, hlast, rfl⟩
    exact ⟨hlast, hkey⟩
  · rintro ⟨hlast, hkey⟩
    exact ⟨_, hkey, hlast, rfl⟩

theorem adapterFor_eq_none_iff :
    adapterFor adapters path = none ↔ ∀ a ∈ adapters, Routing.routingKey path ≠ some a.key := by
  rw [adapterFor]
  cases Routing.routingKey path with
  | none => simp
  | some key =>
      rw [Option.bind_some, findAdapter_eq_none_iff]
      simp only [ne_eq, Option.some.injEq, eq_comm]

/-- The path leads to the adapter that was added between these others: it is the one that is called,
however it answers. -/
def LeadsTo (path : String) (before : List Adapter) (a : Adapter) (after : List Adapter) : Prop :=
  ∀ call, adapterFor (before ++ { a with call } :: after) path = some { a with call }

theorem findAdapter_append_cons (before : List Adapter) (a : Adapter) (after : List Adapter)
    (key : String) :
    findAdapter (before ++ a :: after) key =
      (findAdapter after key).or (if a.key = key then some a else findAdapter before key) := by
  rw [findAdapter, List.reverse_append, List.reverse_cons, List.append_assoc, List.find?_append,
    List.singleton_append, List.find?_cons]
  by_cases h : a.key = key
  · simp [findAdapter, h]
  · simp [findAdapter, h]

theorem leadsTo_iff :
    LeadsTo path before a after ↔ Routing.IsKeyOf path a.key ∧ ∀ b ∈ after, b.key ≠ a.key := by
  constructor
  · intro h
    have hkey : Routing.IsKeyOf path a.key := (adapterFor_eq_some_iff.1 (h a.call)).2
    refine ⟨hkey, findAdapter_eq_none_iff.1 ?_⟩
    cases hafter : findAdapter after a.key with
    | none => rfl
    | some b =>
        -- another one would be called whatever this one does
        have hsame (call) : b = { a with call } := by
          have hfound := h call
          rw [adapterFor, Routing.routingKey_eq_some_iff.2 hkey, Option.bind_some,
            findAdapter_append_cons, hafter, Option.some_or] at hfound
          exact Option.some.inj hfound
        have hcalls := (hsame fun _ _ _ _ => .panicked .other).symm.trans
          (hsame fun _ _ _ _ => .panicked (.text ""))
        cases congrFun (congrFun (congrFun (congrFun (Adapter.mk.inj hcalls).2.2 {}) "") "") .empty
  · rintro ⟨hkey, hafter⟩ call
    exact adapterFor_eq_some_iff.2 ⟨⟨before, after, rfl, hafter⟩, hkey⟩

/-- A request with this path is a call of the adapter, unless there is nothing to give to it. -/
def Dispatcher.Calls (d : Dispatcher) (req : Http.Request) (t : Traffic) (a : Adapter) : Prop :=
  match inputOf req with
  | .error r => (d.typedRpc req).perform t = (.ok r, t)
  | .ok input =>
    ∃ c, c.key = a.key ∧ c.method = req.method ∧ c.path = req.target.path ∧ c.input = input ∧
      (d.typedRpc req).perform t = (d.close (a.answer c), { t with calls := t.calls ++ [c] })

def Dispatcher.CallsNone (d : Dispatcher) (req : Http.Request) (t : Traffic) : Prop :=
  ∃ reason, (d.typedRpc req).perform t = (.ok (refuse reason), t)

theorem Dispatcher.calls_of_adapterFor {d : Dispatcher} {req : Http.Request}
    (h : adapterFor d.adapters req.target.path = some a) (t : Traffic) : d.Calls req t a := by
  obtain ⟨key, hkey, hfound⟩ := Option.bind_eq_some_iff.1 h
  obtain ⟨-, rfl⟩ := findAdapter_eq_some_iff.1 hfound
  rw [Calls, perform_typedRpc, callFor, hkey]
  dsimp only
  rw [hfound]
  cases hinput : inputOf req with
  | error r => rfl
  | ok input => exact ⟨_, rfl, rfl, rfl, rfl, rfl⟩

theorem Dispatcher.callsNone_of_adapterFor {d : Dispatcher} {req : Http.Request}
    (h : adapterFor d.adapters req.target.path = none) (t : Traffic) : d.CallsNone req t := by
  rw [CallsNone, perform_typedRpc, callFor]
  cases hkey : Routing.routingKey req.target.path with
  | none => exact ⟨_, rfl⟩
  | some key =>
      rw [adapterFor, hkey, Option.bind_some] at h
      dsimp only
      rw [h]
      exact ⟨_, rfl⟩

/-- Adapters are found in the order in which they were added to a gateway. -/
theorem Server.adapters_foldl_addAdapter (s : Server) (added : List Adapter) :
    (added.foldl addAdapter s).adapters = s.adapters ++ added := by
  induction added generalizing s with
  | nil => rw [List.foldl_nil, List.append_nil]
  | cons a added ih =>
      rw [List.foldl_cons, ih, addAdapter, List.append_assoc]
      rfl

/-- A path has the key that it begins with, if it begins with one, and this is its only key. Of the
adapters that were added to a gateway, in any order and any number, the last one with the key of its
path is called for a request, and none if no adapter has this key. There are paths that lead to an
adapter exactly if both of its names are segments, the second one in small letters, and no adapter
with its key was added after it. -/
theorem called_by_path (config : GatewayConfig) (chain : Chain) (added : List Adapter)
    (net : Http.Network) (ownAddress date : String) :
    let d := (added.foldl Server.addAdapter { config, chain }).dispatcher net ownAddress date
    (∀ path k, Routing.routingKey path = some k ↔ Routing.IsKeyOf path k) ∧
    (∀ path k k', Routing.IsKeyOf path k → Routing.IsKeyOf path k' → k = k') ∧
    (∀ path a, adapterFor added path = some a ↔
      IsLast added a ∧ Routing.routingKey path = some a.key) ∧
    (∀ path, adapterFor added path = none ↔
      ∀ a ∈ added, Routing.routingKey path ≠ some a.key) ∧
    (∀ req t, (∀ a, adapterFor added req.target.path = some a → d.Calls req t a) ∧
      (adapterFor added req.target.path = none → d.CallsNone req t)) ∧
    ∀ before a after, added = before ++ a :: after →
      ((∃ path, LeadsTo path before a after) ↔
        Routing.IsSegment a.balancer ∧ Routing.IsSegment (Case.lower a.service) ∧
          ∀ b ∈ after, b.key ≠ a.key) := by
  intro d
  have hadapters : d.adapters = added := by
    rw [show d.adapters = _ from Server.adapters_foldl_addAdapter _ added]
    rfl
  refine ⟨fun path k => Routing.routingKey_eq_some_iff, fun path k k' h h' => h.unique h',
    fun path a => ?_, fun path => adapterFor_eq_none_iff, fun req t => ⟨fun a ha => ?_, fun h => ?_⟩,
    fun before a after _ => ?_⟩
  · rw [adapterFor_eq_some_iff, Routing.routingKey_eq_some_iff]
  · exact Dispatcher.calls_of_adapterFor (by rw [hadapters, ha]) t
  · exact Dispatcher.callsNone_of_adapterFor (by rw [hadapters, h]) t
  · simp only [leadsTo_iff, exists_and_right, ← and_assoc]
    rw [← Routing.exists_isKeyOf_keyOf_iff, a.key_eq]

def named (balancer service : String) : Adapter where
  balancer
  service
  call _ _ _ _ := .finished 0 (.ok [])

/-- Of two adapters whose names differ in capitals only, the later one is called, and no path leads
to the other one or to an adapter with a slash in its name. -/
theorem called_by_path_capitals :
    let early := named "rpc" "Example"
    let late := named "rpc" "EXAMPLE"
    let slashed := named "rpc/v1" "Example"
    let added := [early, slashed, late]
    adapterFor added "/rpc/example/call" = some late ∧
      adapterFor added "/rpc/v1/example/call" = none ∧
      (¬∃ path, LeadsTo path [] early [slashed, late]) ∧
      (¬∃ path, LeadsTo path [early] slashed [late]) ∧
      ∃ path, LeadsTo path [early, slashed] late [] := by
  intro early late slashed added
  have hearly : early.key = "/rpc/example/" := by decide
  have hlate : late.key = "/rpc/example/" := by decide
  have hslashed : slashed.key = "/rpc/v1/example/" := by decide
  have hcall : Routing.routingKey "/rpc/example/call" = some "/rpc/example/" := by decide
  have hv1 : Routing.routingKey "/rpc/v1/example/call" = some "/rpc/v1/" := by decide
  obtain ⟨-, -, hsome, hnone, -, hreach⟩ := called_by_path {} {} added .unreachable "" ""
  refine ⟨?_, ?_, ?_, ?_, ?_⟩
  · refine (hsome _ _).2 ⟨⟨[early, slashed], [], rfl, by simp⟩, ?_⟩
    rw [hcall, hlate]
  · refine (hnone _).2 fun a ha => ?_
    rw [hv1]
    simp only [added, List.mem_cons, List.not_mem_nil, or_false] at ha
    rcases ha with rfl | rfl | rfl
    · rw [hearly]; decide
    · rw [hslashed]; decide
    · rw [hlate]; decide
  · rw [hreach [] early [slashed, late] rfl]
    rintro ⟨-, -, hlater⟩
    exact hlater late (by simp) (by rw [hlate, hearly])
  · rw [hreach [early] slashed [late] rfl]
    rintro ⟨hsegment, -, -⟩
    exact absurd hsegment (by decide)
  · rw [hreach [early, slashed] late [] rfl]
    exact ⟨by decide, by decide, by simp⟩

end Gateway

end ServiceMesh
