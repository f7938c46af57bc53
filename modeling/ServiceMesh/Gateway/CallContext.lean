import ServiceMesh.Http.Header

/-!
What goes along with a call of an adapter: the token of the caller and the time that the call may
take, in milliseconds.
-/

namespace ServiceMesh

structure CallContext where
  metadata : Http.Headers := []
  timeout : Option Nat := none

namespace CallContext

def tokenName : String := "authorization"

def new (timeout : Nat) : CallContext := { timeout := some timeout }

/-- Carries a token in place of the one before; a token that cannot be written is ignored. -/
def withAuthorization (c : CallContext) (token : String) : CallContext :=
  let value := Utf8.bytes token
  if Http.Header.isLegalValue value then { c with metadata := c.metadata.set tokenName value }
  else c

def authorization (c : CallContext) : Option String := c.metadata.text? tokenName

/-- The units of time, the finest first, with their length in nanoseconds. -/
def units : List (String × Nat) := [
  ("n", 1), ("u", 1000), ("m", 1000000), ("S", 1000000000), ("M", 60000000000),
  ("H", 3600000000000)]

/-- The time that a call may take, in the finest unit in which it has at most eight digits. -/
def timeoutText (ms : Nat) : Option String :=
  let ns := ms * 1000000
  (units.find? fun u => ns / u.2 < 100000000).map fun u => toString (ns / u.2) ++ u.1

end CallContext

end ServiceMesh
