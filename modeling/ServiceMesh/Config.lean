import ServiceMesh.Failure
import ServiceMesh.Json.Basic
import ServiceMesh.Notify.Bus
import ServiceMesh.Text.Blank

/-!
The configuration of a member: the application, its place in the registry, the notification bus
and the gateway. A missing entry takes its default; the registry takes name and port of the
application where it has none of its own.
-/

namespace ServiceMesh

structure AppConfig where
  name : String := ""
  addr : String := "0.0.0.0"
  port : UInt16 := 0
  mode : Option String := none
  deriving DecidableEq, Repr, Inhabited

structure RegistryConfig where
  /-- Which kind of registry is used. -/
  backend : String := "etcd"
  /-- The addresses of the coordination store, with commas between them. -/
  host : String := ""
  user : Option String := none
  password : Option String := none
  /-- The address under which the member is found, if it is not to be detected. -/
  ip : Option String := none
  serviceName : String := ""
  weight : UInt32 := 0
  enable : Bool := false
  port : UInt16 := 0
  /-- How long a call to the store may take, in seconds. -/
  timeout : UInt64 := 3
  deriving DecidableEq, Repr, Inhabited

namespace RegistryConfig

/-- The addresses of the store: the entries that are not blank, without blanks around them. -/
def endpoints (c : RegistryConfig) : Except Failure (List String) :=
  match ((Blank.splitOn ',' c.host.toList).map Blank.trim).filter (· ≠ []) with
  | [] => .error (.config "no registry servers address")
  | addresses => .ok (addresses.map String.ofList)

/-- The limit on a call, in seconds; it is at least one second. -/
def callTimeout (c : RegistryConfig) : Nat := max c.timeout.toNat 1

end RegistryConfig

structure NotifyConfig where
  capacity : UInt64 := 32
  policy : NotifyPolicy := .block
  deriving DecidableEq, Repr, Inhabited

def NotifyConfig.bus (c : NotifyConfig) : Bus := Bus.new c.capacity.toNat c.policy

/-- A rule of the gateway: paths with the beginning `path` go to the service `id`. -/
structure Route where
  id : String
  path : String
  schema : String
  deriving DecidableEq, Repr, Inhabited

def Route.describe (r : Route) : String := r.id ++ " : " ++ r.schema ++ " :// " ++ r.path

structure GatewayConfig where
  /-- How long a forwarded request may take, in seconds. -/
  timeout : UInt64 := 30
  routes : List Route := []
  /-- The paths that need no token. -/
  whiteList : List String := []
  deriving DecidableEq, Repr, Inhabited

structure Config where
  app : AppConfig := {}
  registry : RegistryConfig := {}
  notify : NotifyConfig := {}
  gateway : GatewayConfig := {}
  deriving DecidableEq, Repr, Inhabited

namespace Config

/-- Gives the registry the name and the port of the application where it has none. -/
def inherit (c : Config) : Config :=
  { c with
    registry := { c.registry with
      serviceName := if c.registry.serviceName = "" then c.app.name else c.registry.serviceName
      port := if c.registry.port = 0 then c.app.port else c.registry.port } }

def textOrNull : Option String → Json
  | some s => .str s
  | none => .null

def policyName : NotifyPolicy → String
  | .block => "block"
  | .coalesce => "coalesce"

/-- The entries of a configuration under their names in configuration files. -/
def toJson (c : Config) : Json :=
  Json.ofMembers [
    ("app", Json.ofMembers [
      ("name", .str c.app.name), ("addr", .str c.app.addr), ("port", Json.ofNat c.app.port.toNat),
      ("mode", textOrNull c.app.mode)]),
    ("registry", Json.ofMembers [
      ("backend", .str c.registry.backend), ("host", .str c.registry.host),
      ("user", textOrNull c.registry.user), ("password", textOrNull c.registry.password),
      ("ip", textOrNull c.registry.ip), ("service_name", .str c.registry.serviceName),
      ("weight", Json.ofNat c.registry.weight.toNat), ("enable", .bool c.registry.enable),
      ("port", Json.ofNat c.registry.port.toNat), ("timeout", Json.ofNat c.registry.timeout.toNat)]),
    ("notify", Json.ofMembers [
      ("capacity", Json.ofNat c.notify.capacity.toNat),
      ("policy", .str (policyName c.notify.policy))]),
    ("gateway", Json.ofMembers [
      ("timeout", Json.ofNat c.gateway.timeout.toNat),
      ("route", .arr (c.gateway.routes.map fun r => Json.ofMembers [
        ("id", .str r.id), ("path", .str r.path), ("schema", .str r.schema)])),
      ("white-list", .arr (c.gateway.whiteList.map .str))])]

end Config

end ServiceMesh
