import ServiceMesh.Application.Lifecycle
import ServiceMesh.Application.Readiness
import ServiceMesh.Cluster.Control

/-!
An application in a cluster. Its node is a party of the cluster; while the application waits for a
server or for its end, everything else in the cluster goes on.
-/

namespace ServiceMesh

namespace Application

/-- Something that takes a while and may fail. -/
structure Job where
  lasts : Nat := 0
  failure : Option Failure := none
  deriving DecidableEq, Repr, Inhabited

def Job.result (j : Job) : Except Failure Unit :=
  match j.failure with
  | some f => .error f
  | none => .ok ()

structure Server where
  name : String
  start : Job := {}
  stop : Job := {}
  address : Option Readiness.Address := none
  deriving Inhabited

/-- The limits of an application, in milliseconds. -/
structure Limits where
  /-- How long one server may take to stop. -/
  shutdown : Nat := 5000
  /-- How long one server may take to become ready. -/
  readiness : Nat := 30000
  checksReadiness : Bool := true
  deriving DecidableEq, Repr, Inhabited

/-- A registry that an application brings along, on the shared store of the cluster. -/
structure OwnRegistry where
  /-- The name by which the configuration asks for it. -/
  name : String
  /-- Why it cannot be opened, if it cannot. -/
  opening : Option Failure := none
  /-- Why the n-th registration is refused, if it is; the first one has the number one. -/
  refusal : Nat → Option Failure := fun _ => none
  /-- Why the node is never withdrawn, if it is not. -/
  withdrawal : Option Failure := none

inductive LogEntry where
  | constructed
  | registration (number : Nat)
  | started (server : String)
  | startEnded (server : String) (succeeded : Bool)
  | running
  | observed (services : Except Failure (List String)) (watchers : Nat)
  | shutdown
  | withdrawal
  | stopped (server : String)
  | stopEnded (server : String) (succeeded : Bool)

end Application

open Application in
structure Application where
  config : Config
  servers : List Server
  limits : Limits := {}
  /-- The registry in place of the usual kinds. -/
  own : Option OwnRegistry := none
  connection : Connection := .error "no remote store"
  /-- The moments at which the registry is looked at while the application serves, and the moment
  of its end, counted from when it started to serve. -/
  observations : List Nat := []
  lifetime : Nat := 0

namespace Application

structure Run where
  cluster : Cluster := {}
  /-- Whether the registry has been opened, and whether it is of use. -/
  registry : Option Bool := none
  registrations : Nat := 0
  /-- What happened and when. -/
  log : List (Nat × LogEntry) := []
  deriving Inhabited

/-- The party of the application in its cluster. -/
def party : String := "application"

namespace Run

def note (r : Run) (e : LogEntry) : Run := { r with log := r.log ++ [(r.cluster.now, e)] }

def wait (r : Run) (ms : Nat) : Run := { r with cluster := r.cluster.advance ms }

def directory (r : Run) : Directory := r.cluster.directory party

def watchers (r : Run) : Nat := (r.cluster.bus party).watcherCount

def isEnabled (r : Run) : Bool := r.registry = some true

/-- The node of the application, if its registry is of use. -/
def node? (r : Run) : Option Node := (r.cluster.member? party).map (·.node)

end Run

def register (a : Application) (r : Run) : Run × Except Failure Unit :=
  let r := { r with registrations := r.registrations + 1 }
  let r := if a.own.isSome then r.note (.registration r.registrations) else r
  match a.own.bind fun o => o.refusal r.registrations with
  | some f => (r, .error f)
  | none =>
    let (c, result) := r.cluster.register party
    ({ r with cluster := c }, result)

def detach (a : Application) (r : Run) : Run :=
  { r with cluster := r.cluster.joinDetached party a.config.notify.bus, registry := some false }

/-- Puts the member of the application on the store of its registry. -/
def create (a : Application) (detected : String) (r : Run) : Run × Except Failure Unit :=
  let config := a.config.registry
  let bus := a.config.notify.bus
  match a.own with
  | none =>
    let (c, result) := r.cluster.create party config detected bus a.connection
    ({ r with cluster := c }, result.map fun _ => ())
  | some o =>
    if o.name ≠ config.backend then
      (r, .error (.config ("unknown registry backend: " ++ config.backend)))
    else
      let r := r.note .constructed
      match o.opening with
      | some f => (r, .error f)
      | none =>
        let member : Member := { node := config.node detected, settings := .ofConfig config }
        ({ r with cluster := r.cluster.join party member 0 bus }, .ok ())

/-- Opens the registry and registers the node, once. Whatever goes wrong leaves the application
without a registry. -/
def init (a : Application) (detected : String) (r : Run) : Run :=
  if r.registry.isSome then r
  else if ¬a.config.registry.enable then a.detach r
  else
    match a.create detected r with
    | (r, .error _) => a.detach r
    | (r, .ok _) =>
      match a.register r with
      | (r, .error _) => a.detach r
      | (r, .ok _) => { r with registry := some true }

/-- The withdrawal ends with a signal on the bus and is waited for without a limit; `none` says that
it does not come back. -/
def deregister (a : Application) (r : Run) : Run × Option (Except Failure Unit) :=
  if ¬r.isEnabled then (r, some (.ok ()))
  else
    let r := if a.own.isSome then r.note .withdrawal else r
    match a.own.bind (·.withdrawal) with
    | some f => (r, some (.error f))
    | none =>
      let (c, result) := r.cluster.withdraw party
      ({ r with cluster := c }, result)

/-- Serves until the end of the lifetime, with a look at the registry now and then. -/
def serve (a : Application) (isWatched : Bool) (r : Run) : Run :=
  let start := r.cluster.now
  let r := r.note .running
  let r := (if isWatched then a.observations else []).foldl (fun r t =>
    let r := r.wait (start + t - r.cluster.now)
    r.note (.observed r.directory.names r.watchers)) r
  (r.wait (start + a.lifetime - r.cluster.now)).note .shutdown

def startServer (r : Run) (s : Server) : Run × Except Failure Unit :=
  let r := (r.note (.started s.name)).wait s.start.lasts
  (r.note (.startEnded s.name s.start.failure.isNone), s.start.result)

/-- Stops a server, or gives up on it at the limit. -/
def stopServer (a : Application) (r : Run) (s : Server) : Run × Except Failure Unit :=
  let r := r.note (.stopped s.name)
  if s.stop.lasts ≤ a.limits.shutdown then
    ((r.wait s.stop.lasts).note (.stopEnded s.name s.stop.failure.isNone), s.stop.result)
  else (r.wait a.limits.shutdown, .ok ())

/-- Waits until a server is ready. One without an address is taken to be. -/
def probeServer (a : Application) (r : Run) (s : Server) : Run × Except Failure Unit :=
  match s.address with
  | none => (r, .ok ())
  | some address =>
    let (ms, failure) := Readiness.probe s.name address a.limits.readiness
    (r.wait ms, match failure with
      | some reason => .error (.unavailable reason)
      | none => .ok ())

/-- Does what a stage of the life asks for; `none` says that it does not come back. -/
def perform (a : Application) (isWatched : Bool) (r : Run) :
    Lifecycle.Action → Run × Option (Except Failure Unit)
  | .start i => (startServer r (a.servers.getD i default)).map id some
  | .probe i => (a.probeServer r (a.servers.getD i default)).map id some
  | .register => (a.register r).map id some
  | .awaitShutdown => (a.serve isWatched r, some (.ok ()))
  | .deregister => a.deregister r
  | .stop i => (a.stopServer r (a.servers.getD i default)).map id some

/-- Goes on from a stage to the end of the life, or to a stage that the life does not get past. -/
def walk (a : Application) (p : Lifecycle.Plan) (isWatched : Bool) :
    Nat → Lifecycle.Stage → Run → Run × Lifecycle.Stage
  | 0, stage, r => (r, stage)
  | fuel + 1, stage, r =>
    match stage.action? with
    | none => (r, stage)
    | some action =>
      match a.perform isWatched r action with
      | (r, some result) => walk a p isWatched fuel (stage.next p result) r
      | (r, none) => (r, stage)

/-- The whole life of an application, from the opening of its registry if that is still to come, and
the stage that it gets to. -/
def runUntil (a : Application) (detected : String) (r : Run) : Run × Lifecycle.Stage :=
  let isWatched := r.registry.isSome
  let r := a.init detected r
  let p : Lifecycle.Plan :=
    { servers := a.servers.length
      checksReadiness := a.limits.checksReadiness
      isEnabled := r.isEnabled }
  walk a p isWatched (Lifecycle.Stage.fuel p) (.first p) r

def describe (a : Application) : Lifecycle.Cause → String
  | .start i f => "failed to start server " ++ (a.servers.getD i default).name ++ ": " ++ f.message
  | .probe _ reason => reason
  | .register f => "failed to register service: " ++ f.message

end Application

end ServiceMesh
