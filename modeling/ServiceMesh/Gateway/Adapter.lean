import ServiceMesh.Gateway.Flow
import ServiceMesh.Json.Writer
import ServiceMesh.Text.Case

/-!
Adapters: what requests for remote procedures are handed to, instead of a backend. An adapter is
found by a key of two segments. The usual adapter has a table of actions by method and path, whose
results are JSON.
-/

namespace ServiceMesh.Gateway

/-- How a call ends: with a result after so many milliseconds, or with a panic. -/
inductive Outcome (α : Type) where
  | finished (after : Nat) (result : Except Failure α)
  | panicked (p : Panic)

def Outcome.map {α β : Type} (f : α → β) : Outcome α → Outcome β
  | finished after r => finished after (r.map f)
  | panicked p => panicked p

structure Adapter where
  balancer : String
  service : String
  call : CallContext → String → String → ByteArray → Outcome (List UInt8)

/-- The key under which an adapter is found; the name of the service is in small letters. -/
def Adapter.key (a : Adapter) : String := "/" ++ a.balancer ++ "/" ++ Case.lower a.service ++ "/"

/-- The adapter of a key: of several the one that was added last. -/
def findAdapter (adapters : List Adapter) (key : String) : Option Adapter :=
  adapters.reverse.find? fun a => a.key = key

/-! ### Tables of actions -/

abbrev Action := CallContext → ByteArray → Outcome Json

structure ActionEntry where
  method : String
  path : String
  action : Action

/-- What an action is found by: the method in capitals, and the path. -/
def actionKey (method path : String) : String := Case.upper method ++ ":" ++ path

/-- The action for a method and a path: of several the one that was added last. -/
def findAction (table : List ActionEntry) (method path : String) : Option Action :=
  (table.reverse.find? fun e => actionKey e.method e.path = actionKey method path).map (·.action)

def noAction : Failure := .internal "endpoint not found"

def Adapter.ofTable (balancer service : String) (table : List ActionEntry) : Adapter where
  balancer
  service
  call ctx method path input :=
    match findAction table method path with
    | some action => (action ctx input).map Json.write
    | none => .finished 0 (.error noAction)

end ServiceMesh.Gateway
