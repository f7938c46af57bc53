import ServiceMesh.KeyMap
import ServiceMesh.Text.Hex
import ServiceMesh.Text.Sha256
import ServiceMesh.Json.Record
import ServiceMesh.Json.Writer

/-!
Nodes: running instances of a service. The identifier of a node is a digest of its address, so a
node that comes back at the same address takes its old place. Nodes are stored as JSON records
under keys `/servers/<service>/<id>`; a service name may itself contain slashes, an identifier
cannot.
-/

namespace ServiceMesh

/-- What all keys of nodes start with. -/
def servicePrefix : String := "/servers/"

structure Node where
  id : String
  service : String
  /-- The key that the node is stored under. -/
  path : String
  ip : String
  port : UInt16
  /-- What the node says about itself beyond its address. -/
  info : KeyMap String
  deriving DecidableEq, Inhabited

namespace Node

/-- An address of an instance. -/
def address (ip : String) (port : UInt16) : String := ip ++ ":" ++ toString port.toNat

/-- The first half of the digest of the address, in hexadecimal digits. -/
def idOf (ip : String) (port : UInt16) : String :=
  Hex.ofBytes ((Sha256.digest (Utf8.bytes (address ip port))).take 16)

/-- The key of a node. -/
def key (service id : String) : String := servicePrefix ++ service ++ "/" ++ id

/-- Cuts at the last slash. -/
def splitLast : List Char → Option (List Char × List Char)
  | [] => none
  | c :: rest =>
    match splitLast rest with
    | some (service, id) => some (c :: service, id)
    | none => if c = '/' then some ([], rest) else none

/-- The service and the identifier that a key stands for. -/
def parseKey (k : String) : Option (String × String) :=
  let start := servicePrefix.toList
  if start.isPrefixOf k.toList then
    match splitLast (k.toList.drop start.length) with
    | some (service, id) =>
      if service = [] ∨ id = [] then none else some (String.ofList service, String.ofList id)
    | none => none
  else none

/-- A node of a service at an address. -/
def new (service ip : String) (port : UInt16) : Node :=
  let id := idOf ip port
  { id, service, path := key service id, ip, port, info := ∅ }

def withInfo (n : Node) (k v : String) : Node := { n with info := n.info.insert k v }

def addr (n : Node) : String := address n.ip n.port

def url (n : Node) : String := "http://" ++ n.addr

/-- One line about a node, for people. -/
def describe (n : Node) : String := n.id ++ "\t" ++ n.addr ++ " in " ++ n.path

/-! ### The stored record -/

/-- The record of a node, with its members in the order of the record. -/
def members (n : Node) : List (String × Json) := [
  ("id", .str n.id),
  ("serviceName", .str n.service),
  ("path", .str n.path),
  ("ip", .str n.ip),
  ("port", Json.ofNat n.port.toNat),
  ("info", .obj (n.info.entries.map fun e => (e.1, .str e.2)))]

def encode (n : Node) : List UInt8 := Json.writeRecord n.members

/-- A record while it is read: the members found so far. -/
structure Partial where
  id : Option String := none
  service : Option String := none
  path : Option String := none
  ip : Option String := none
  port : Option UInt16 := none
  info : Option (KeyMap String) := none

/-- Everything but the info has to be there. -/
def Partial.complete? (r : Partial) : Option Node := do
  return { id := ← r.id, service := ← r.service, path := ← r.path, ip := ← r.ip,
           port := ← r.port, info := r.info.getD ∅ }

def fields : List (Json.Field Partial) := [
  { name := "id"
    read := fun r bs => (Json.readText bs).map fun v => ({ r with id := some v.1 }, v.2)
    isSet := fun r => r.id.isSome },
  { name := "serviceName"
    read := fun r bs => (Json.readText bs).map fun v => ({ r with service := some v.1 }, v.2)
    isSet := fun r => r.service.isSome },
  { name := "path"
    read := fun r bs => (Json.readText bs).map fun v => ({ r with path := some v.1 }, v.2)
    isSet := fun r => r.path.isSome },
  { name := "ip"
    read := fun r bs => (Json.readText bs).map fun v => ({ r with ip := some v.1 }, v.2)
    isSet := fun r => r.ip.isSome },
  { name := "port"
    read := fun r bs => (Json.readInt 0 65535 bs).map fun v =>
      ({ r with port := some v.1.toNat.toUInt16 }, v.2)
    isSet := fun r => r.port.isSome },
  { name := "info"
    read := fun r bs => (Json.readTextMap bs).map fun v => ({ r with info := some v.1 }, v.2)
    isSet := fun r => r.info.isSome
    hasDefault := true }]

/-- The node that a stored value is the record of. -/
def decode? (value : List UInt8) : Option Node := do
  (← Json.readAll (Json.Record.read fields {}) value).complete?

end Node

/-- A service and its nodes, in the order in which they became known. -/
structure Service where
  name : String
  nodes : List Node
  deriving DecidableEq, Inhabited

namespace Service

def isEmpty (s : Service) : Bool := s.nodes.isEmpty

/-- Replaces the node of the same identifier where it stands, or adds the node at the end. -/
def upsertNode (n : Node) : List Node → List Node
  | [] => [n]
  | m :: rest => if m.id = n.id then n :: rest else m :: upsertNode n rest

end Service

end ServiceMesh
