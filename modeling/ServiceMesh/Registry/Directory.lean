import ServiceMesh.Lease.Member

/-!
Directories: what a registry answers to look-ups at one moment. Clients need no more of a registry
than its directory, so what they do with it holds for every kind of registry.
-/

namespace ServiceMesh

structure Directory where
  service : String → Except Failure Service
  names : Except Failure (List String)

namespace Directory

/-- Nothing can be looked up. -/
def detached : Directory := ⟨fun _ => .error .notReady, .error .notReady⟩

/-- The addresses of a service. Having no node is a failure. -/
def addresses (d : Directory) (name : String) : Except Failure (List String) :=
  match d.service name with
  | .error f => .error f
  | .ok s => if s.isEmpty then .error .noNodes else .ok (s.nodes.map (·.addr))

end Directory

def Member.directory (m : Member) : Directory := ⟨m.getService, m.listServices⟩

/-- Prepared answers: the first entry of a name is the answer for it. -/
structure Script where
  services : List (String × Except Failure (List Node))
  /-- Why the listing fails, if it does. -/
  listing : Option Failure
  deriving Inhabited

namespace Script

def lookup (name : String) : List (String × Except Failure (List Node)) → Option (Except Failure (List Node))
  | [] => none
  | e :: rest => if e.1 = name then some e.2 else lookup name rest

def directory (s : Script) : Directory where
  service name :=
    match lookup name s.services with
    | some (.ok nodes) => .ok ⟨name, nodes⟩
    | some (.error f) => .error f
    | none => .error (.noSuchService name)
  names :=
    match s.listing with
    | some f => .error f
    | none => .ok (s.services.map (·.1))

end Script

end ServiceMesh
