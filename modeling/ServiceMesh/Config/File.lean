import ServiceMesh.Config
import ServiceMesh.Toml.Reader

/-!
Configuration files. A record of the configuration may be given as a table, in which entries of
other names are passed over, or as an array of its entries in their order. Only the entries of a
route have no default.
-/

namespace ServiceMesh

namespace Toml.Value

def text? : Value → Option String
  | .text s => some s
  | _ => none

def bool? : Value → Option Bool
  | .bool b => some b
  | _ => none

/-- A whole number of at most so many bits. -/
def nat? (bits : Nat) : Value → Option Nat
  | .int i => if 0 ≤ i ∧ i < Nat.pow 2 bits then some i.toNat else none
  | _ => none

/-- An array with items of one kind. -/
def list? {α : Type} (item? : Value → Option α) : Value → Option (List α)
  | .array items => items.mapM item?
  | _ => none

/-- The entries of a record with the given names. A date has entries of its own, all of which are
passed over. -/
def record? (names : List String) : Value → Option (List (String × Value))
  | .table entries => some entries
  | .array items => some (names.zip items)
  | .date _ => some []
  | _ => none

end Toml.Value

namespace ConfigFile

open Toml (Value)

abbrev Entries := List (String × Value)

def find? (name : String) (es : Entries) : Option Value := (es.find? fun e => e.1 = name).map (·.2)

def entry {α : Type} (es : Entries) (name : String) (default : α) (read : Value → Option α) :
    Option α :=
  match find? name es with
  | some v => read v
  | none => some default

def required {α : Type} (es : Entries) (name : String) (read : Value → Option α) : Option α :=
  (find? name es).bind read

def optionalText (v : Value) : Option (Option String) := v.text?.map some

def app? (v : Value) : Option AppConfig := do
  let es ← v.record? ["name", "addr", "port", "mode"]
  return {
    name := ← entry es "name" "" (·.text?)
    addr := ← entry es "addr" "0.0.0.0" (·.text?)
    port := (← entry es "port" 0 (·.nat? 16)).toUInt16
    mode := ← entry es "mode" none optionalText }

def registry? (v : Value) : Option RegistryConfig := do
  let es ← v.record? ["backend", "host", "user", "password", "ip", "service_name", "weight",
    "enable", "port", "timeout"]
  return {
    backend := ← entry es "backend" "etcd" (·.text?)
    host := ← entry es "host" "" (·.text?)
    user := ← entry es "user" none optionalText
    password := ← entry es "password" none optionalText
    ip := ← entry es "ip" none optionalText
    serviceName := ← entry es "service_name" "" (·.text?)
    weight := (← entry es "weight" 0 (·.nat? 32)).toUInt32
    enable := ← entry es "enable" false (·.bool?)
    port := (← entry es "port" 0 (·.nat? 16)).toUInt16
    timeout := (← entry es "timeout" 3 (·.nat? 64)).toUInt64 }

def policyOf? (name : String) : Option NotifyPolicy :=
  [NotifyPolicy.block, .coalesce].find? fun p => Config.policyName p = name

/-- A policy is a name, on its own or in front of nothing. -/
def policy? : Value → Option NotifyPolicy
  | .text name => policyOf? name
  | .table [(name, .table [])] => policyOf? name
  | .table [(name, .array [])] => policyOf? name
  | _ => none

def notify? (v : Value) : Option NotifyConfig := do
  let es ← v.record? ["capacity", "policy"]
  return {
    capacity := (← entry es "capacity" 32 (·.nat? 64)).toUInt64
    policy := ← entry es "policy" .block policy? }

def route? (v : Value) : Option Route := do
  let es ← v.record? ["id", "path", "schema"]
  return {
    id := ← required es "id" (·.text?)
    path := ← required es "path" (·.text?)
    schema := ← required es "schema" (·.text?) }

def gateway? (v : Value) : Option GatewayConfig := do
  let es ← v.record? ["timeout", "route", "white-list"]
  return {
    timeout := (← entry es "timeout" 30 (·.nat? 64)).toUInt64
    routes := ← entry es "route" [] (·.list? route?)
    whiteList := ← entry es "white-list" [] (·.list? (·.text?)) }

def config? (es : Entries) : Option Config := do
  return {
    app := ← entry es "app" {} app?
    registry := ← entry es "registry" {} registry?
    notify := ← entry es "notify" {} notify?
    gateway := ← entry es "gateway" {} gateway? }

end ConfigFile

/-- The configuration that a file describes, with what the registry inherits. -/
def Config.ofToml (text : String) : Except Failure Config :=
  match (Toml.parse? text).bind ConfigFile.config? with
  | some c => .ok c.inherit
  | none => .error .malformedToml

end ServiceMesh
