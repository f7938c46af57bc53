/-!
Failures. Every operation of the library that can fail says so with a `Failure`: a kind, which
decides the numeric code that callers see, and a reason in words. The texts of the reasons that the
library gives itself stand at the end of this file, each once.
-/

namespace ServiceMesh

/-- The numeric classes of failures that callers outside the process see. Zero is left to success. -/
inductive ErrorCode where
  | common
  | remoteCall
  | broker
  | registry
  | config
  | gateway
  | requestParameter
  | noToken
  deriving DecidableEq, Repr

namespace ErrorCode

def all : List ErrorCode :=
  [common, remoteCall, broker, registry, config, gateway, requestParameter, noToken]

def value : ErrorCode → Int32
  | common => 500
  | remoteCall => 501
  | broker => 502
  | registry => 503
  | config => 504
  | gateway => 505
  | requestParameter => 506
  | noToken => 507

def name : ErrorCode → String
  | common => "COMMON"
  | remoteCall => "REMOTE_CALL"
  | broker => "BROKER"
  | registry => "REGISTRY"
  | config => "CONFIG"
  | gateway => "GATEWAY"
  | requestParameter => "REQ_PARAMETER"
  | noToken => "NO_TOKEN"

def ofValue? (n : Int32) : Option ErrorCode := all.find? fun c => c.value = n

def ofName? (s : String) : Option ErrorCode := all.find? fun c => c.name = s

/-- A changing topology causes failures of these two classes, which may pass on a second try. -/
def isRetryable (c : ErrorCode) : Bool := c = remoteCall || c = registry

end ErrorCode

inductive Failure where
  /-- The registry is not ready, or a service has no node to call. -/
  | unavailable (reason : String)
  /-- A service name that nobody has registered. -/
  | notFound (reason : String)
  /-- A client could not resolve an address or forward a call. -/
  | remoteCall (reason : String)
  /-- The gateway could not route or dispatch a request. -/
  | gateway (code : Int32) (reason : String)
  | config (reason : String)
  /-- A record could not be written or read, or the system failed. -/
  | internal (reason : String)
  /-- The status that a remote procedure answered with. -/
  | rpc (code : Int32) (reason : String)
  deriving DecidableEq, Repr, Inhabited

namespace Failure

def code : Failure → Int32
  | unavailable _ => ErrorCode.registry.value
  | notFound _ => ErrorCode.registry.value
  | remoteCall _ => ErrorCode.remoteCall.value
  | gateway code _ => code
  | config _ => ErrorCode.config.value
  | internal _ => ErrorCode.common.value
  | rpc code _ => code

/-- The reason without the class in front of it. -/
def reason : Failure → String
  | unavailable r => r
  | notFound r => r
  | remoteCall r => r
  | gateway _ r => r
  | config r => r
  | internal r => r
  | rpc _ r => r

/-- The whole message: the class and the reason. -/
def message : Failure → String
  | unavailable r => "unavailable: " ++ r
  | notFound r => "not found: " ++ r
  | remoteCall r => "remote call error: " ++ r
  | gateway code r => "gateway error [" ++ toString code.toInt ++ "]: " ++ r
  | config r => "config error: " ++ r
  | internal r => "internal error: " ++ r
  | rpc code r => "rpc status [" ++ toString code.toInt ++ "]: " ++ r

def isRpc : Failure → Bool
  | rpc _ _ => true
  | _ => false

/-- Whether the code belongs to a class that may pass on a second try. -/
def isRetryable (f : Failure) : Bool :=
  match ErrorCode.ofValue? f.code with
  | some c => c.isRetryable
  | none => false

/-! ### The reasons of this library -/

/-- Nothing is known about any service yet, or any more. -/
def notReady : Failure := unavailable "service registry not ready"

def withdrawn : Failure := unavailable "registry already deregistered"

def callTimedOut : Failure := unavailable "coordination store call timed out"

def storeUnreachable : Failure := unavailable "coordination store unreachable"

def keepAliveRejected : Failure := unavailable "keep-alive rejected"

def noNodes : Failure := unavailable "no available nodes"

def noSuchService (name : String) : Failure := notFound ("service " ++ name ++ " not found")

def ofGateway (reason : String) : Failure := gateway ErrorCode.gateway.value reason

/-- A text that is not JSON, or not JSON of the expected shape. -/
def malformedJson : Failure := internal "json error: malformed text"

/-- A configuration that is not TOML, or does not have the expected shape. -/
def malformedToml : Failure := config "toml error: malformed text"

def unreadable (detail : String) : Failure := internal ("io error: " ++ detail)

end Failure

/-- The status of a remote procedure call: one of seventeen codes, and a message. -/
structure RpcStatus where
  code : Int32
  message : String
  deriving DecidableEq, Repr

namespace RpcStatus

/-- Codes outside of the seventeen that exist mean "unknown". -/
def ofCode (code : Int32) (message : String) : RpcStatus :=
  ⟨if 0 ≤ code ∧ code ≤ 16 then code else 2, message⟩

/-- How a failure is told to a remote caller. -/
def ofFailure : Failure → RpcStatus
  | .rpc code reason => ofCode code reason
  | .unavailable reason => ⟨14, reason⟩
  | .notFound reason => ⟨5, reason⟩
  | .config reason => ⟨9, reason⟩
  | f => ⟨13, f.reason⟩

def toFailure (s : RpcStatus) : Failure := .rpc s.code s.message

end RpcStatus

end ServiceMesh
