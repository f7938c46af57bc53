import ServiceMesh.Failure
import ServiceMesh.Http.Message
import ServiceMesh.Json.Record
import ServiceMesh.Json.Writer

/-!
Envelopes: the one form in which the gateway answers for itself. Zero is the code of success; every
failure is answered with the status 200 and an envelope of another code.
-/

namespace ServiceMesh

structure Envelope where
  code : Int32
  msg : String
  data : Json := .null
  deriving Inhabited

namespace Envelope

def success (data : Json) : Envelope := { code := 0, msg := "", data }

def failed (code : Int32) (msg : String) : Envelope := { code, msg }

def failedWith (code : ErrorCode) (msg : String) : Envelope := failed code.value msg

def ofFailure (f : Failure) : Envelope := failed f.code f.reason

def isSuccess (e : Envelope) : Bool := e.code = 0

def encode (e : Envelope) : List UInt8 :=
  Json.writeRecord [("code", Json.ofInt e.code.toInt), ("msg", .str e.msg), ("data", e.data)]

/-- An envelope while it is read. -/
structure Partial where
  code : Option Int32 := none
  msg : Option String := none
  data : Option Json := none

def fields : List (Json.Field Partial) := [
  { name := "code"
    read := fun r bs => (Json.readInt (-2147483648) 2147483647 bs).map fun v =>
      ({ r with code := some (Int32.ofInt v.1) }, v.2)
    isSet := fun r => r.code.isSome },
  { name := "msg"
    read := fun r bs => (Json.readText bs).map fun v => ({ r with msg := some v.1 }, v.2)
    isSet := fun r => r.msg.isSome },
  { name := "data"
    read := fun r bs =>
      (Json.valueReader (Json.nestingLimit - 1) bs).map fun v => ({ r with data := some v.1 }, v.2)
    isSet := fun r => r.data.isSome
    hasDefault := true }]

def decode? (bs : List UInt8) : Option Envelope := do
  let r ← Json.readAll (Json.Record.read fields {}) bs
  return { code := ← r.code, msg := ← r.msg, data := r.data.getD .null }

def contentType : Http.Header := ⟨"content-type", Utf8.bytes "application/json"⟩

def response (e : Envelope) : Http.Response :=
  { status := 200, headers := [contentType], body := ⟨e.encode.toArray⟩ }

end Envelope

end ServiceMesh
