import ServiceMesh.Failure

/-!
The life of an application: its servers are started in their order and have to be ready, then the
node is registered, then the application serves until it is told to end. After that the node is
withdrawn and the servers are stopped in reverse order. When a server cannot be started, is not
ready, or the node cannot be registered, the servers that were started are stopped at once.

The life is a walk through stages: every stage but the last asks for one action, and the outcome of
the action decides on the next stage.
-/

namespace ServiceMesh.Lifecycle

/-- What an application does next; servers are known by their places. -/
inductive Action where
  | start (server : Nat)
  | probe (server : Nat)
  | register
  | awaitShutdown
  | deregister
  | stop (server : Nat)
  deriving DecidableEq, Repr

/-- Why an application ended before it was told to. -/
inductive Cause where
  | start (server : Nat) (f : Failure)
  | probe (server : Nat) (reason : String)
  | register (f : Failure)
  deriving DecidableEq, Repr

inductive Stage where
  /-- The servers before this one have been started. -/
  | starting (next : Nat)
  /-- The servers before this one are ready. -/
  | probing (next : Nat)
  | registering
  | serving
  | withdrawing
  /-- So many servers are left to be stopped. -/
  | stopping (left : Nat) (cause : Option Cause)
  | ended (cause : Option Cause)
  deriving DecidableEq, Repr

/-- What a life depends on beside the outcomes of its actions. -/
structure Plan where
  /-- How many servers there are. -/
  servers : Nat
  /-- Whether the servers have to be ready before the node is registered. -/
  checksReadiness : Bool
  /-- Whether there is a registry. -/
  isEnabled : Bool
  deriving DecidableEq, Repr

namespace Stage

/-- The stage of serving, past the registration if there is no registry. -/
def afterProbes (p : Plan) : Stage := if p.isEnabled then registering else serving

/-- The stage in which the servers from a place on are probed. -/
def probeFrom (p : Plan) (next : Nat) : Stage :=
  if p.checksReadiness ∧ next < p.servers then probing next else afterProbes p

def startFrom (p : Plan) (next : Nat) : Stage :=
  if next < p.servers then starting next else probeFrom p 0

def stopFrom (left : Nat) (cause : Option Cause) : Stage :=
  if left = 0 then ended cause else stopping left cause

def first (p : Plan) : Stage := startFrom p 0

def action? : Stage → Option Action
  | starting next => some (.start next)
  | probing next => some (.probe next)
  | registering => some .register
  | serving => some .awaitShutdown
  | withdrawing => some .deregister
  | stopping left _ => some (.stop (left - 1))
  | ended _ => none

/-- The stage after an action. What goes wrong while the application ends stops nothing. -/
def next (p : Plan) : Stage → Except Failure Unit → Stage
  | starting n, .ok _ => startFrom p (n + 1)
  | starting n, .error f => stopFrom n (some (.start n f))
  | probing n, .ok _ => probeFrom p (n + 1)
  | probing n, .error f => stopFrom p.servers (some (.probe n f.reason))
  | registering, .ok _ => serving
  | registering, .error f => stopFrom p.servers (some (.register f))
  | serving, _ => withdrawing
  | withdrawing, _ => stopFrom p.servers none
  | stopping left cause, _ => stopFrom (left - 1) cause
  | ended cause, _ => ended cause

/-- Why the application ends early, if it does. -/
def cause? : Stage → Option Cause
  | stopping _ cause => cause
  | ended cause => cause
  | _ => none

/-- More actions than can follow from a stage on. -/
def fuel (p : Plan) : Nat := 3 * p.servers + 4

end Stage

end ServiceMesh.Lifecycle
