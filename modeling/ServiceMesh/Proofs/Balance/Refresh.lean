import ServiceMesh.Balance.Pool
import ServiceMesh.Balance.Resolver

/-!
What it takes to be up to date. A pool or a resolver that has been shown a directory agrees with it,
whatever it held before, and goes on to agree with it while it is used.
-/

namespace ServiceMesh

namespace Directory

def known (d : Directory) (name : String) : List String :=
  match d.addresses name with
  | .ok addresses => addresses
  | .error _ => []

/-- What is seen of a directory that changes in the meantime. The last of its earlier states comes
first; every look-up is answered at a moment of its own, and `none` stands for the listing. -/
def sighting (d : Directory) (earlier : List Directory) (moment : Option String → Nat) :
    Directory where
  service name := (earlier.getD (moment (some name)) d).service name
  names := (earlier.getD (moment none) d).names

/-- A directory that does not change is seen as it is. -/
theorem sighting_nil (d : Directory) (moment : Option String → Nat) :
    d.sighting [] moment = d := rfl

end Directory

/-! ### Pools -/

namespace Pool

variable {p : Pool} {d : Directory}

/-- The pool has a client for exactly those nodes and services that the registry tells of. -/
def InSync (p : Pool) (d : Directory) : Prop :=
  p.isSynced = true ∧ ∀ b, b ∈ p.clients ↔ b ∈ targets d

theorem inSync_sync (p : Pool) (d : Directory) : (p.sync d).InSync d := by
  refine ⟨rfl, fun b => ?_⟩
  simp only [sync, difference, List.mem_append, List.mem_filter, decide_eq_true_eq]
  constructor
  · rintro (⟨hb, hno⟩ | ⟨hd, -⟩)
    · exact Decidable.byContradiction fun hd => hno ⟨hb, hd⟩
    · exact hd
  · intro hd
    by_cases hb : b ∈ p.clients
    · exact .inl ⟨hb, fun hno => hno.2 hd⟩
    · exact .inr ⟨hd, hb⟩

theorem InSync.select (h : p.InSync d) (service : String) : (p.select service).1.InSync d := by
  rw [Pool.select]
  split
  · exact h
  · split <;> exact h

end Pool

/-! ### Resolvers -/

namespace Resolver

variable {r : Resolver} {d : Directory}

/-- Unless it has ended, the resolver has told the addresses that the registry has. -/
def InSync (r : Resolver) (d : Directory) : Prop :=
  r.isClosed = false → r.current = d.known r.service

theorem push_eq (r : Resolver) (d : Directory) :
    r.push d =
      if r.isClosed ∧ changes r.current (d.known r.service) ≠ [] then r
      else
        { r with
          current := d.known r.service
          queue := r.queue ++ changes r.current (d.known r.service) } := rfl

theorem inSync_push (r : Resolver) (d : Directory) : (r.push d).InSync d := by
  intro ho
  rw [push_eq] at ho ⊢
  split
  · next hc =>
      rw [if_pos hc] at ho
      exact absurd (ho.symm.trans hc.1) Bool.false_ne_true
  · rfl

theorem InSync.forward (h : r.InSync d) : r.forward.InSync d := by
  rw [Resolver.forward]
  split
  · exact h
  · split
    · exact fun ho => absurd ho.symm Bool.false_ne_true
    · exact h

theorem InSync.dropChannel (h : r.InSync d) : r.dropChannel.InSync d := h

end Resolver

end ServiceMesh
