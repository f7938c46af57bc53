import ServiceMesh.Balance.RoundRobin
import ServiceMesh.Registry.Directory

/-!
Selectors of the client side. A slot holds no selector until the registry has told of its first
change; after that every look-up goes to the registry as it is then, and takes the next node by
turns. Rebuilding the selector keeps the counter.
-/

namespace ServiceMesh

structure SelectorSlot where
  roundRobin : RoundRobin
  isBuilt : Bool := false
  deriving DecidableEq, Repr, Inhabited

namespace SelectorSlot

def rebuild (s : SelectorSlot) : SelectorSlot := { s with isBuilt := true }

def next (s : SelectorSlot) (d : Directory) (name : String) :
    SelectorSlot × Except Failure Node :=
  match d.service name with
  | .error f => (s, .error (.unavailable ("service no exist: " ++ f.message)))
  | .ok service =>
    match s.roundRobin.pick service.nodes with
    | (r, some n) => ({ s with roundRobin := r }, .ok n)
    | (r, none) => ({ s with roundRobin := r }, .error .noNodes)

/-- What marks an address that names a service instead of a host. -/
def scheme : String := "lb://"

/-- The service that a balanced address names, and the path behind it. -/
def splitTarget (rest : List Char) : List Char × List Char :=
  (rest.takeWhile fun c => c ≠ '/' && c ≠ '?', rest.dropWhile fun c => c ≠ '/' && c ≠ '?')

/-- The plain address for a balanced one. Any other address stays as it is. -/
def resolve (s : SelectorSlot) (d : Directory) (url : String) :
    SelectorSlot × Except Failure String :=
  if scheme.toList.isPrefixOf url.toList then
    let (service, path) := splitTarget (url.toList.drop scheme.length)
    if ¬s.isBuilt then (s, .error (.remoteCall "service registry not ready"))
    else
      match s.next d (String.ofList service) with
      | (s, .ok n) => (s, .ok ("http://" ++ n.addr ++ String.ofList path))
      | (s, .error f) => (s, .error (.remoteCall f.reason))
  else (s, .ok url)

end SelectorSlot

end ServiceMesh
