import Mathlib.Tactic.Common
import ServiceMesh.Balance.Pool
import ServiceMesh.Balance.Selector

/-!
How evenly the nodes of a service are picked. All services draw from one counter, and whose turn it
is depends on its remainder alone. As long as the counter goes on by one from a turn of a service to
its next, its nodes come one after the other; every time that it does not, because others were
served in between, one node may be picked once more than it should be.
-/

namespace ServiceMesh

namespace RoundRobin

variable {n r i j k : Nat} {turns : List Nat}

/-! ### Turns as remainders -/

/-- How many steps a counter with a remainder is before the turn of a place. -/
def ahead (n r i : Nat) : Nat := if r ≤ i then i - r else i + n - r

/-- One, if the turn of the first place comes before the turn of the second, and nothing if not. -/
def owes (n r i j : Nat) : Nat := if ahead n r i < ahead n r j then 1 else 0

def picked (n : Nat) (turns : List Nat) (i : Nat) : Nat := turns.countP fun k => k % n = i

/-- How often the counter has not gone on by one from a turn to the next. What counts is the
remainder: whole rounds of turns for others in between are no disturbance. -/
def disturbances (n : Nat) : List Nat → Nat
  | k :: k' :: turns => (if k' % n = (k + 1) % n then 0 else 1) + disturbances n (k' :: turns)
  | _ => 0

theorem disturbances_cons_cons (n k k' : Nat) (turns : List Nat) :
    disturbances n (k :: k' :: turns) =
      (if k' % n = (k + 1) % n then 0 else 1) + disturbances n (k' :: turns) := rfl

theorem owes_le_one (n r i j : Nat) : owes n r i j ≤ 1 := by
  rw [owes]
  split <;> omega

theorem succ_mod_of_pos (hn : 0 < n) (k : Nat) :
    (k + 1) % n = if k % n + 1 = n then 0 else k % n + 1 := by
  rw [← Nat.mod_add_mod k n 1]
  have hk : k % n < n := Nat.mod_lt k hn
  split
  · next h => rw [h, Nat.mod_self]
  · exact Nat.mod_eq_of_lt (by omega)

theorem ahead_lt (hr : r < n) (hi : i < n) : ahead n r i < n := by
  rw [ahead]
  split <;> omega

theorem ahead_eq_zero_iff (hr : r < n) : ahead n r i = 0 ↔ r = i := by
  rw [ahead]
  split <;> omega

/-- A step of the counter brings a place nearer to its turn, and behind all others after it. -/
theorem ahead_succ (hi : i < n) (k : Nat) :
    ahead n ((k + 1) % n) i = if k % n = i then n - 1 else ahead n (k % n) i - 1 := by
  have hk : k % n < n := Nat.mod_lt k (by omega)
  rw [succ_mod_of_pos (by omega)]
  generalize k % n = r at hk ⊢
  by_cases hr : r + 1 = n
  · rw [if_pos hr, ahead, ahead, if_pos (Nat.zero_le i)]
    split_ifs <;> omega
  · rw [if_neg hr, ahead, ahead]
    split_ifs <;> omega

/-- A place that is picked is no longer owed a turn before the other. -/
theorem owes_succ (hi : i < n) (hj : j < n) (k : Nat) :
    (if k % n = i then 1 else 0) + owes n ((k + 1) % n) i j ≤
      (if k % n = j then 1 else 0) + owes n (k % n) i j := by
  have hk : k % n < n := Nat.mod_lt k (by omega)
  have hi0 := ahead_eq_zero_iff (i := i) hk
  have hj0 := ahead_eq_zero_iff (i := j) hk
  have hilt := ahead_lt hk hi
  have hjlt := ahead_lt hk hj
  rw [owes, owes, ahead_succ hi, ahead_succ hj]
  by_cases hki : k % n = i
  · rw [if_pos hki, if_pos hki]
    by_cases hkj : k % n = j
    · rw [if_pos hkj, if_pos hkj]
      split_ifs <;> omega
    · rw [if_neg hkj, if_neg hkj]
      split_ifs <;> omega
  · rw [if_neg hki, if_neg hki]
    by_cases hkj : k % n = j
    · rw [if_pos hkj, if_pos hkj]
      split_ifs <;> omega
    · rw [if_neg hkj, if_neg hkj]
      split_ifs <;> omega

/-- A place that is picked was owed the turn. -/
theorem owes_of_picked (hj : j < n) (hij : i ≠ j) (h : k % n = i) : owes n (k % n) i j = 1 := by
  have hk : k % n < n := Nat.mod_lt k (by omega)
  have hi0 := (ahead_eq_zero_iff hk).2 h
  have hj0 := ahead_eq_zero_iff (i := j) hk
  rw [owes, if_pos]
  omega

theorem picked_cons (n k : Nat) (turns : List Nat) (i : Nat) :
    picked n (k :: turns) i = (if k % n = i then 1 else 0) + picked n turns i := by
  rw [picked, List.countP_cons, Nat.add_comm]
  simp [picked]

/-- From a turn on a place is picked no more often than another, but for the turn that it is owed
and for the disturbances. -/
theorem picked_le_owes (hi : i < n) (hj : j < n) (hij : i ≠ j) (k : Nat) (turns : List Nat) :
    picked n (k :: turns) i ≤
      picked n (k :: turns) j + owes n (k % n) i j + disturbances n (k :: turns) := by
  have hstep := owes_succ hi hj k
  induction turns generalizing k with
  | nil =>
      have hnil (i : Nat) : picked n [] i = 0 := rfl
      rw [picked_cons, picked_cons, hnil, hnil]
      omega
  | cons k' turns ih =>
      have hrest := ih k' (owes_succ hi hj k')
      rw [picked_cons n k, picked_cons n k, disturbances_cons_cons]
      by_cases hk' : k' % n = (k + 1) % n
      · rw [if_pos hk']
        rw [hk'] at hrest
        omega
      · -- the other place may be left out at a disturbance, but only once
        rw [if_neg hk']
        have hone := owes_le_one n (k' % n) i j
        by_cases hk : k % n = i
        · have howed := owes_of_picked hj hij hk
          rw [if_pos hk]
          omega
        · rw [if_neg hk]
          omega

theorem picked_le (hi : i < n) (hj : j < n) (turns : List Nat) :
    picked n turns i ≤ picked n turns j + 1 + disturbances n turns := by
  by_cases hij : i = j
  · subst hij
    omega
  · cases turns with
    | nil => exact Nat.zero_le _
    | cons k turns =>
        have hle := picked_le_owes hi hj hij k turns
        have hone := owes_le_one n (k % n) i j
        omega

/-! ### Runs of one counter -/

variable {α σ : Type} {items : String → List α} {name : String}

/-- What the counter was at the turns of a service, when one service after the other was asked
for. Services without items have no turn. -/
def turnsOf (items : String → List α) (name : String) : RoundRobin → List String → List Nat
  | _, [] => []
  | r, s :: asked =>
    let later := turnsOf items name (r.pick (items s)).1 asked
    if s = name ∧ items s ≠ [] then r.counter.toNat :: later else later

def turnCount (items : String → List α) (asked : List String) : Nat :=
  asked.countP fun s => items s ≠ []

def otherTurns (items : String → List α) (name : String) (asked : List String) : Nat :=
  asked.countP fun s => s ≠ name ∧ items s ≠ []

def served (next : σ → String → σ × Except Failure α) (name : String) : σ → List String → List α
  | _, [] => []
  | x, s :: asked =>
    (if s = name then (next x s).2.toOption.toList else []) ++ served next name (next x s).1 asked

@[simp] theorem pick_nil (r : RoundRobin) : r.pick ([] : List α) = (r, none) := rfl

theorem pick_of_ne_nil {l : List α} (h : l ≠ []) (r : RoundRobin) :
    r.pick l = (⟨r.counter + 1⟩, l[r.counter.toNat % l.length]?) := by
  rw [pick, if_neg]
  simpa using h

theorem exists_pick {l : List α} (h : l ≠ []) (r : RoundRobin) :
    ∃ a ∈ l, r.pick l = (⟨r.counter + 1⟩, some a) := by
  have hlt : r.counter.toNat % l.length < l.length := Nat.mod_lt _ (List.length_pos_iff.2 h)
  refine ⟨l[r.counter.toNat % l.length], List.getElem_mem hlt, ?_⟩
  rw [pick_of_ne_nil h, List.getElem?_eq_getElem hlt]

theorem turnsOf_cons (r : RoundRobin) (s : String) (asked : List String) :
    turnsOf items name r (s :: asked) =
      if s = name ∧ items s ≠ [] then
        r.counter.toNat :: turnsOf items name (r.pick (items s)).1 asked
      else turnsOf items name (r.pick (items s)).1 asked := rfl

theorem turnsOf_cons_of_eq_nil {s : String} (hs : items s = []) (r : RoundRobin)
    (asked : List String) :
    turnsOf items name r (s :: asked) = turnsOf items name r asked := by
  simp [turnsOf_cons, hs]

theorem turnsOf_cons_self (hs : items name ≠ []) (r : RoundRobin) (asked : List String) :
    turnsOf items name r (name :: asked) =
      r.counter.toNat :: turnsOf items name ⟨r.counter + 1⟩ asked := by
  simp [turnsOf_cons, pick_of_ne_nil hs, hs]

theorem turnsOf_cons_of_ne {s : String} (hs : items s ≠ []) (hname : s ≠ name) (r : RoundRobin)
    (asked : List String) :
    turnsOf items name r (s :: asked) = turnsOf items name ⟨r.counter + 1⟩ asked := by
  simp [turnsOf_cons, pick_of_ne_nil hs, hname]

theorem turnCount_cons (s : String) (asked : List String) :
    turnCount items (s :: asked) = turnCount items asked + if items s = [] then 0 else 1 := by
  by_cases hs : items s = [] <;> simp [turnCount, hs]

theorem otherTurns_cons (s : String) (asked : List String) :
    otherTurns items name (s :: asked) =
      otherTurns items name asked + if s = name ∨ items s = [] then 0 else 1 := by
  by_cases hname : s = name <;> by_cases hs : items s = [] <;> simp [otherTurns, hname, hs]

theorem toNat_succ {k : UInt64} (h : k.toNat + 1 < UInt64.size) : (k + 1).toNat = k.toNat + 1 := by
  rw [UInt64.toNat_add]
  exact Nat.mod_eq_of_lt h

/-- The counter goes astray at most once for each turn of another service. -/
theorem disturbances_le_otherTurns (r : RoundRobin) (asked : List String)
    (hr : r.counter.toNat + turnCount items asked < UInt64.size) (k : Nat) :
    disturbances n (k :: turnsOf items name r asked) ≤
      otherTurns items name asked + if r.counter.toNat % n = (k + 1) % n then 0 else 1 := by
  induction asked generalizing r k with
  | nil => exact Nat.zero_le _
  | cons s asked ih =>
      rw [turnCount_cons] at hr
      rw [otherTurns_cons]
      by_cases hs : items s = []
      · rw [if_pos hs] at hr
        rw [turnsOf_cons_of_eq_nil hs, if_pos (Or.inr hs)]
        exact ih r hr k
      · rw [if_neg hs] at hr
        have hnext := toNat_succ (k := r.counter) (by omega)
        have hlater := ih ⟨r.counter + 1⟩ (by rw [hnext]; omega)
        simp only [hnext] at hlater
        by_cases hname : s = name
        · -- the next turn is measured by this one
          subst hname
          have hself := hlater r.counter.toNat
          rw [if_pos rfl] at hself
          rw [turnsOf_cons_self hs, disturbances_cons_cons, if_pos (Or.inl rfl)]
          omega
        · have hother := hlater k
          rw [turnsOf_cons_of_ne hs hname, if_neg (not_or.2 ⟨hname, hs⟩)]
          split at hother <;> omega

theorem disturbances_le_cons (n k : Nat) (turns : List Nat) :
    disturbances n turns ≤ disturbances n (k :: turns) := by
  cases turns with
  | nil => exact Nat.le_refl _
  | cons k' turns => exact Nat.le_add_left _ _

/-- The counter goes on as if nothing were there before the first turn. -/
theorem disturbances_turnsOf_le (hn : 0 < n) (r : RoundRobin) (asked : List String)
    (hr : r.counter.toNat + turnCount items asked < UInt64.size) :
    disturbances n (turnsOf items name r asked) ≤ otherTurns items name asked := by
  have hround : (r.counter.toNat + (n - 1) + 1) % n = r.counter.toNat % n := by
    rw [Nat.add_assoc, Nat.sub_add_cancel hn, Nat.add_mod_right]
  have hle : disturbances n ((r.counter.toNat + (n - 1)) :: turnsOf items name r asked) ≤ _ :=
    disturbances_le_otherTurns r asked hr _
  rw [if_pos hround.symm] at hle
  exact Nat.le_trans (disturbances_le_cons n _ _) hle

/-! ### Services that are asked for -/

/-- Every request takes the turn of its service, and nothing but the counter changes with it. -/
structure Serves (next : σ → String → σ × Except Failure α) (state : RoundRobin → σ)
    (items : String → List α) : Prop where
  goesOn : ∀ r s, (next (state r) s).1 = state (r.pick (items s)).1
  answers : ∀ r s, (next (state r) s).2.toOption = (r.pick (items s)).2

/-- A service with its items was served by turns, while one service after the other was asked for:
each time with the item that the counter says, and none of them more often than another by more than
one and the number of disturbances. Disturbances come from the turns of other services. -/
structure ByTurns (items : String → List α) (name : String) (r : RoundRobin) (asked : List String)
    (served : List α) : Prop where
  served : served.map some =
    (turnsOf items name r asked).map fun k => (items name)[k % (items name).length]?
  even : ∀ i < (items name).length, ∀ j < (items name).length,
    picked (items name).length (turnsOf items name r asked) i ≤
      picked (items name).length (turnsOf items name r asked) j + 1 +
        disturbances (items name).length (turnsOf items name r asked)
  undisturbed : r.counter.toNat + turnCount items asked < UInt64.size →
    disturbances (items name).length (turnsOf items name r asked) ≤ otherTurns items name asked

theorem turnsOf_of_eq_nil (h : items name = []) (r : RoundRobin) (asked : List String) :
    turnsOf items name r asked = [] := by
  induction asked generalizing r with
  | nil => rfl
  | cons s asked ih =>
      rw [turnsOf_cons, ih, if_neg]
      rintro ⟨rfl, hs⟩
      exact hs h

variable {next : σ → String → σ × Except Failure α} {state : RoundRobin → σ}

theorem Serves.served_eq (h : Serves next state items) (r : RoundRobin) (asked : List String) :
    (served next name (state r) asked).map some =
      (turnsOf items name r asked).map fun k => (items name)[k % (items name).length]? := by
  induction asked generalizing r with
  | nil => rfl
  | cons s asked ih =>
      rw [RoundRobin.served, List.map_append, h.goesOn, h.answers, ih]
      by_cases hs : items s = []
      · rw [turnsOf_cons_of_eq_nil hs, hs]
        simp
      · rw [pick_of_ne_nil hs]
        by_cases hname : s = name
        · subst hname
          have hlt : r.counter.toNat % (items s).length < (items s).length :=
            Nat.mod_lt _ (List.length_pos_iff.2 hs)
          rw [if_pos rfl, turnsOf_cons_self hs, List.map_cons, List.getElem?_eq_getElem hlt]
          rfl
        · rw [if_neg hname, turnsOf_cons_of_ne hs hname]
          rfl

theorem Serves.byTurns (h : Serves next state items) (r : RoundRobin) (name : String)
    (asked : List String) :
    ByTurns items name r asked (served next name (state r) asked) where
  served := h.served_eq r asked
  even i hi j hj := picked_le hi hj _
  undisturbed hr := by
    by_cases hn : items name = []
    · rw [turnsOf_of_eq_nil hn]
      exact Nat.zero_le _
    · exact disturbances_turnsOf_le (List.length_pos_iff.2 hn) r asked hr

end RoundRobin

/-! ### The pool and the selectors -/

namespace Pool

def candidates (p : Pool) (name : String) : List Backend :=
  if p.isSynced then p.clients.filter fun c => c.service = name else []

theorem serves (p : Pool) :
    RoundRobin.Serves select (fun r => { p with roundRobin := r }) p.candidates := by
  have hselect (r : RoundRobin) (s : String) :
      (select { p with roundRobin := r } s).1 =
          { p with roundRobin := (r.pick (p.candidates s)).1 } ∧
        (select { p with roundRobin := r } s).2.toOption = (r.pick (p.candidates s)).2 := by
    rw [select, candidates]
    dsimp only
    by_cases hsync : p.isSynced = true
    · rw [if_neg (not_not_intro hsync), if_pos hsync]
      split <;> (next hpick => rw [hpick]; exact ⟨rfl, rfl⟩)
    · rw [if_pos hsync, if_neg hsync]
      exact ⟨rfl, rfl⟩
  exact ⟨fun r s => (hselect r s).1, fun r s => (hselect r s).2⟩

theorem exists_select {p : Pool} {service : String} (h : p.isSynced = true)
    (hb : ∃ b ∈ p.clients, b.service = service) :
    ∃ b ∈ p.clients, b.service = service ∧
      p.select service = ({ p with roundRobin := ⟨p.roundRobin.counter + 1⟩ }, .ok b) := by
  have hne : p.clients.filter (fun c => c.service = service) ≠ [] := by
    obtain ⟨b, hmem, hservice⟩ := hb
    exact List.ne_nil_of_mem (List.mem_filter.2 ⟨hmem, by simpa using hservice⟩)
  obtain ⟨b, hmem, hpick⟩ := p.roundRobin.exists_pick hne
  obtain ⟨hclient, hservice⟩ := List.mem_filter.1 hmem
  refine ⟨b, hclient, by simpa using hservice, ?_⟩
  rw [select, if_neg (by simp [h]), hpick]

end Pool

def Directory.nodes (d : Directory) (name : String) : List Node :=
  match d.service name with
  | .ok s => s.nodes
  | .error _ => []

namespace SelectorSlot

theorem serves (s : SelectorSlot) (d : Directory) :
    RoundRobin.Serves (fun s name => s.next d name) (fun r => { s with roundRobin := r })
      d.nodes := by
  have hnext (r : RoundRobin) (name : String) :
      (next { s with roundRobin := r } d name).1 =
          { s with roundRobin := (r.pick (d.nodes name)).1 } ∧
        (next { s with roundRobin := r } d name).2.toOption = (r.pick (d.nodes name)).2 := by
    rw [next, Directory.nodes]
    cases d.service name with
    | error f => exact ⟨rfl, rfl⟩
    | ok service =>
        dsimp only
        split <;> (next hpick => rw [hpick]; exact ⟨rfl, rfl⟩)
  exact ⟨fun r name => (hnext r name).1, fun r name => (hnext r name).2⟩

theorem exists_next {d : Directory} {name : String} (h : d.nodes name ≠ []) (s : SelectorSlot) :
    ∃ n ∈ d.nodes name, (s.next d name).2 = .ok n := by
  rw [Directory.nodes] at h ⊢
  rw [next]
  cases hservice : d.service name with
  | error f =>
      rw [hservice] at h
      exact absurd rfl h
  | ok service =>
      rw [hservice] at h
      obtain ⟨n, hn, hpick⟩ := RoundRobin.exists_pick h s.roundRobin
      refine ⟨n, hn, ?_⟩
      dsimp only
      rw [hpick]

end SelectorSlot

namespace RoundRobin

/-- Whatever services are asked for in between, the pool and the selectors serve each service by
turns. -/
theorem served_by_turns (p : Pool) (s : SelectorSlot) (d : Directory) (name : String)
    (asked : List String) :
    ByTurns p.candidates name p.roundRobin asked (served Pool.select name p asked) ∧
      ByTurns d.nodes name s.roundRobin asked (served (fun s => s.next d) name s asked) :=
  ⟨p.serves.byTurns p.roundRobin name asked, (s.serves d).byTurns s.roundRobin name asked⟩

/-- Two services with two nodes each, and a counter at its beginning. -/
def crossing : Pool where
  clients := [⟨"10.0.0.1:9001", "svc-a"⟩, ⟨"10.0.0.2:9001", "svc-a"⟩, ⟨"10.0.0.1:9002", "svc-b"⟩,
    ⟨"10.0.0.2:9002", "svc-b"⟩]
  isSynced := true
  roundRobin := ⟨0⟩

/-- They are asked for alternately, and every turn of the one is a disturbance for the other: only
one node of each is ever selected. -/
theorem served_crossing :
    let asked := ["svc-a", "svc-b", "svc-a", "svc-b", "svc-a", "svc-b"]
    (crossing.candidates "svc-a").length = 2 ∧ (crossing.candidates "svc-b").length = 2 ∧
      crossing.roundRobin.counter.toNat + turnCount crossing.candidates asked < UInt64.size ∧
      (served Pool.select "svc-a" crossing asked).map (·.addr) =
        ["10.0.0.1:9001", "10.0.0.1:9001", "10.0.0.1:9001"] ∧
      (served Pool.select "svc-b" crossing asked).map (·.addr) =
        ["10.0.0.2:9002", "10.0.0.2:9002", "10.0.0.2:9002"] ∧
      ¬∀ a ∈ crossing.candidates "svc-a", ∀ b ∈ crossing.candidates "svc-a",
        (served Pool.select "svc-a" crossing asked).count a ≤
          (served Pool.select "svc-a" crossing asked).count b + 1 := by
  decide +kernel

end RoundRobin

end ServiceMesh
