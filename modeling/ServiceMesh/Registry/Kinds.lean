import ServiceMesh.Config
import ServiceMesh.Node

/-!
The kinds of registries that a configuration can name, and the node that a configuration
describes.
-/

namespace ServiceMesh

inductive RegistryKind where
  /-- A store in another process, found by its addresses. -/
  | remote
  /-- A store of the process's own. -/
  | memory
  deriving DecidableEq, Repr

namespace RegistryKind

/-- The names of the kinds, in increasing order. -/
def table : List (String × RegistryKind) := [("etcd", remote), ("memory", memory)]

/-- The kind that a configuration asks for. A remote store needs at least one address. -/
def choose (c : RegistryConfig) : Except Failure RegistryKind :=
  match table.find? fun e => e.1 = c.backend with
  | none => .error (.config ("unknown registry backend: " ++ c.backend))
  | some (_, remote) =>
    match c.endpoints with
    | .ok _ => .ok remote
    | .error f => .error f
  | some (_, memory) => .ok memory

end RegistryKind

/-- What comes of connecting to a remote store: its place among the stores of a cluster, or why
there is no connection. -/
abbrev Connection := Except String Nat

/-- The node of a configuration. Where it gives no address, the detected one is taken. -/
def RegistryConfig.node (c : RegistryConfig) (detected : String) : Node :=
  let ip := match c.ip with
    | some ip => if ip = "" then detected else ip
    | none => detected
  Node.new c.serviceName ip c.port

end ServiceMesh
