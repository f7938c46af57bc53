import ServiceMesh.Gateway.Flow

/-!
Chains of interceptors around a terminal handler. Each interceptor has a priority; the lower it is,
the further out it stands, and of two with the same priority the one added later stands further out.
-/

namespace ServiceMesh.Gateway

structure Interceptor where
  name : String
  /-- Puts the interceptor around a handler. -/
  wrap : Handler → Handler

/-- Interceptors with their priorities, in the order in which they were added. -/
structure Chain where
  entries : List (Int32 × Interceptor) := []

namespace Chain

def add (c : Chain) (priority : Int32) (i : Interceptor) : Chain :=
  { c with entries := c.entries ++ [(priority, i)] }

def size (c : Chain) : Nat := c.entries.length

def isEmpty (c : Chain) : Bool := c.entries.isEmpty

/-- The interceptors from the inside out. -/
def sorted (c : Chain) : List (Int32 × Interceptor) :=
  c.entries.mergeSort fun a b => b.1 ≤ a.1

/-- The names in the order in which a request meets the interceptors. -/
def executionOrder (c : Chain) : List String := c.sorted.reverse.map (·.2.name)

def build (c : Chain) (terminal : Handler) : Handler :=
  c.sorted.foldl (fun next e => e.2.wrap next) terminal

end Chain

end ServiceMesh.Gateway
