import ServiceMesh.Balance.RoundRobin

/-!
Round robins as they are held. Whoever picks holds a handle, and a handle draws from a counter. A
clone of a handle draws from the counter of the handle it was cloned from, so clones take turns with
each other; round robins that were started apart know nothing of each other.
-/

namespace ServiceMesh

structure Handles where
  counters : List RoundRobin
  /-- Which counter each handle draws from. Handles are numbered in the order in which they came
  up. -/
  sources : List Nat
  sources_lt : ∀ i ∈ sources, i < counters.length
  deriving DecidableEq

namespace Handles

variable {α : Type}

def empty : Handles := ⟨[], [], by simp⟩

instance : Inhabited Handles := ⟨empty⟩

/-- What is done with handles. A pick is one step: nobody else sees the counter between its value
being taken and its being moved on. -/
inductive Act (α : Type) where
  /-- A round robin of its own, with its first handle. -/
  | start (counter : UInt64)
  | clone (handle : Nat)
  | pick (handle : Nat) (items : List α)

def start (t : Handles) (c : UInt64) : Handles where
  counters := t.counters ++ [⟨c⟩]
  sources := t.sources ++ [t.counters.length]
  sources_lt i hi := by
    rw [List.length_append]
    rcases List.mem_append.1 hi with hi | hi
    · exact Nat.lt_add_right 1 (t.sources_lt i hi)
    · exact List.mem_singleton.1 hi ▸ Nat.lt_succ_self _

@[simp] theorem start_counters (t : Handles) (c : UInt64) :
    (t.start c).counters = t.counters ++ [⟨c⟩] := rfl

@[simp] theorem start_sources (t : Handles) (c : UInt64) :
    (t.start c).sources = t.sources ++ [t.counters.length] := rfl

/-- Only handles that there are can be cloned. -/
def clone (t : Handles) (handle : Nat) : Handles where
  counters := t.counters
  sources := t.sources ++ t.sources[handle]?.toList
  sources_lt i hi := by
    rcases List.mem_append.1 hi with hi | hi
    · exact t.sources_lt i hi
    · exact t.sources_lt i (List.mem_of_getElem? (Option.mem_toList.1 hi))

@[simp] theorem clone_counters (t : Handles) (handle : Nat) :
    (t.clone handle).counters = t.counters := rfl

@[simp] theorem clone_sources (t : Handles) (handle : Nat) :
    (t.clone handle).sources = t.sources ++ t.sources[handle]?.toList := rfl

/-- Moves a counter on as a pick from a list does. -/
def moveOn (t : Handles) (i : Nat) (items : List α) : Handles where
  counters := t.counters.modify i fun r => (r.pick items).1
  sources := t.sources
  sources_lt j hj := by
    rw [List.length_modify]
    exact t.sources_lt j hj

@[simp] theorem moveOn_counters (t : Handles) (i : Nat) (items : List α) :
    (t.moveOn i items).counters = t.counters.modify i fun r => (r.pick items).1 := rfl

@[simp] theorem moveOn_sources (t : Handles) (i : Nat) (items : List α) :
    (t.moveOn i items).sources = t.sources := rfl

/-- The handles after an act, and what was picked if it was a pick. -/
def act (t : Handles) : Act α → Handles × Option α
  | .start c => (t.start c, none)
  | .clone handle => (t.clone handle, none)
  | .pick handle items =>
    match t.sources[handle]? with
    | some i => (t.moveOn i items, t.counters[i]?.bind fun r => (r.pick items).2)
    | none => (t, none)

end Handles

end ServiceMesh
