/-!
Round robin: a counter of 64 bits whose remainder says who is next. The counter moves with every
pick that has somebody to pick, and wraps at its end.
-/

namespace ServiceMesh

structure RoundRobin where
  counter : UInt64
  deriving DecidableEq, Repr, Inhabited

namespace RoundRobin

variable {α : Type}

/-- The item whose turn it is, and the counter after it. An empty list has no turn. -/
def pick (r : RoundRobin) (items : List α) : RoundRobin × Option α :=
  if items.isEmpty then (r, none)
  else (⟨r.counter + 1⟩, items[r.counter.toNat % items.length]?)

end RoundRobin

end ServiceMesh
