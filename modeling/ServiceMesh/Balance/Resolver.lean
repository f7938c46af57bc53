import ServiceMesh.Balance.Difference
import ServiceMesh.Http.Target
import ServiceMesh.Registry.Directory

/-!
Resolvers of balanced channels. A balanced channel spreads its calls over all nodes of a service by
itself, so its resolver tells it every node that came or went. The changes wait in a queue without
bounds, from which they are forwarded into the channel as it has room, so telling a change never
waits. The resolver ends when a change can no longer be delivered.
-/

namespace ServiceMesh

inductive Change where
  | insert (addr : String)
  | remove (addr : String)
  deriving DecidableEq, Repr

structure Resolver where
  service : String
  /-- The addresses that were told last. -/
  current : List String := []
  /-- The changes that are not in the channel yet. -/
  queue : List Change := []
  /-- The changes that the channel has taken. -/
  channel : List Change := []
  channelOpen : Bool := true
  /-- Whether a change could not be delivered. -/
  isClosed : Bool := false
  deriving DecidableEq, Repr, Inhabited

namespace Resolver

/-- How many changes the channel takes before it is used. -/
def channelCapacity : Nat := 64

def isEndpoint (addr : String) : Bool := (Http.Target.parse? ("http://" ++ addr)).isSome

/-- The changes that lead from one list of addresses to another: first what is gone, then what is
new and can be connected to. -/
def changes (old new : List String) : List Change :=
  let change := difference old new
  change.removed.map .remove ++ (change.added.filter isEndpoint).map .insert

/-- Tells the channel the addresses that the registry has now; none, if it has no answer. -/
def push (r : Resolver) (d : Directory) : Resolver :=
  let next := match d.addresses r.service with
    | .ok addresses => addresses
    | .error _ => []
  let changes := changes r.current next
  if r.isClosed ∧ changes ≠ [] then r
  else { r with current := next, queue := r.queue ++ changes }

/-- Moves waiting changes into the channel while it has room, and ends when there is no channel. -/
def forward (r : Resolver) : Resolver :=
  if r.queue = [] then r
  else if ¬r.channelOpen then { r with queue := [], isClosed := true }
  else
    let room := channelCapacity - r.channel.length
    { r with channel := r.channel ++ r.queue.take room, queue := r.queue.drop room }

def dropChannel (r : Resolver) : Resolver := { r with channelOpen := false }

def scheme : String := "lb"

/-- The service that a target names: what follows the scheme, a colon and any number of slashes,
of which there are two at least. -/
def parseTarget (target : String) : Except Failure String :=
  let start := (scheme ++ "://").toList
  let invalid : Except Failure String := .error (.remoteCall ("invalid rpc target: " ++ target))
  if start.isPrefixOf target.toList then
    match (target.toList.drop start.length).dropWhile (· = '/') with
    | [] => invalid
    | name => .ok (String.ofList name)
  else invalid

/-- A resolver for a target, which has told its channel the addresses of the moment. -/
def build (d : Directory) (target : String) : Except Failure Resolver := do
  let service ← parseTarget target
  return ({ service } : Resolver).push d

end Resolver

end ServiceMesh
