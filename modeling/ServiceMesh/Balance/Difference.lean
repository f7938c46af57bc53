/-! The difference of two lists as sets: what is new keeps the order of the new list, what is gone
keeps the order of the old one. -/

namespace ServiceMesh

variable {α : Type} [DecidableEq α]

structure Difference (α : Type) where
  added : List α
  removed : List α
  deriving DecidableEq, Repr

def difference (old new : List α) : Difference α :=
  ⟨new.filter fun a => a ∉ old, old.filter fun a => a ∉ new⟩

end ServiceMesh
