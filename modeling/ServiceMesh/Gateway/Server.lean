import ServiceMesh.Gateway.Dispatcher
import ServiceMesh.Gateway.Interceptors

/-! A whole gateway: a chain of interceptors around the dispatcher. -/

namespace ServiceMesh.Gateway

structure Server where
  config : GatewayConfig := {}
  chain : Chain := {}
  adapters : List Adapter := []

namespace Server

/-- What servers are called in messages. -/
def name : String := "gateway"

def addInterceptor (s : Server) (priority : Int32) (i : Interceptor) : Server :=
  { s with chain := s.chain.add priority i }

/-- Adds the usual interceptors, for the routes and the open paths of the configuration. -/
def withDefaults (s : Server) (fresh : Nat → String) : Server :=
  let usual := defaultChain fresh s.config.routes s.config.whiteList
  { s with chain := { entries := s.chain.entries ++ usual.entries } }

def addAdapter (s : Server) (a : Adapter) : Server := { s with adapters := s.adapters ++ [a] }

/-- The dispatcher of a gateway that is reachable at an address of its own. -/
def dispatcher (s : Server) (net : Http.Network) (ownAddress date : String) : Dispatcher where
  net
  adapters := s.adapters
  timeout := s.config.timeout.toNat * 1000
  forwardedFor := ownAddress
  date

def handler (s : Server) (net : Http.Network) (ownAddress date : String) : Handler :=
  s.chain.build (s.dispatcher net ownAddress date).dispatch

end Server

end ServiceMesh.Gateway
