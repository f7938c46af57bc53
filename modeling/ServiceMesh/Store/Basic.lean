import ServiceMesh.Failure
import ServiceMesh.KeyMap
import ServiceMesh.Store.Event
import ServiceMesh.Text.Hex

/-!
The coordination store: records under keys, leases that keys can be bound to, and the log of what
happened to the records. A key is bound to the lease of its last write; when a lease expires, the
keys bound to it are deleted. Every change of a record is published as one event.
-/

namespace ServiceMesh

abbrev LeaseId := Int64

namespace LeaseId

/-- A lease in texts: the hexadecimal digits of its 64 bits. -/
def text (l : LeaseId) : String := Hex.ofNat l.toUInt64.toNat

end LeaseId

/-- A stored value, and the lease it goes with if it has one. -/
structure Record where
  value : List UInt8
  lease : Option LeaseId
  deriving DecidableEq, Inhabited

/-- A lease that has not expired, and the keys bound to it. -/
structure Lease where
  id : LeaseId
  keys : KeyMap Unit
  deriving DecidableEq, Inhabited

structure Store where
  records : KeyMap Record
  leases : List Lease
  nextLease : LeaseId
  /-- Everything that was published, the oldest first. -/
  published : Array Event
  /-- While it is off, every call fails and does nothing. -/
  isAvailable : Bool
  /-- While it is on, no lease is renewed. -/
  rejectsKeepAlive : Bool
  deriving Inhabited

namespace Store

def empty : Store where
  records := ∅
  leases := []
  nextLease := 1
  published := #[]
  isAvailable := true
  rejectsKeepAlive := false

def get? (s : Store) (key : String) : Option (List UInt8) := (s.records.get? key).map (·.value)

def lease? (s : Store) (id : LeaseId) : Option Lease := s.leases.find? fun l => l.id = id

/-- The keys bound to a lease. -/
def boundKeys (s : Store) (id : LeaseId) : List String :=
  match s.lease? id with
  | some l => l.keys.keys
  | none => []

def leaseCount (s : Store) : Nat := s.leases.length

def publish (s : Store) (e : Event) : Store := { s with published := s.published.push e }

/-- Changes the keys bound to a lease, if there is such a lease. -/
def updateLease (s : Store) (id : LeaseId) (f : KeyMap Unit → KeyMap Unit) : Store :=
  { s with leases := s.leases.map fun l => if l.id = id then { l with keys := f l.keys } else l }

def bind (s : Store) (key : String) (id : LeaseId) : Store :=
  s.updateLease id fun keys => keys.insert key ()

/-- Takes a key out of the lease of the record that is there. -/
def unbind (s : Store) (key : String) : Store :=
  match (s.records.get? key).bind (·.lease) with
  | some id => s.updateLease id fun keys => keys.erase key
  | none => s

/-- Writes a record. It leaves the lease of its last write and joins the given one, which has to
be there. -/
def put (s : Store) (key : String) (value : List UInt8) (lease : Option LeaseId) :
    Except Failure Store :=
  if ¬s.isAvailable then .error .storeUnreachable
  else
    let write (s : Store) : Store :=
      { s with records := s.records.insert key ⟨value, lease⟩ }.publish (.put key value)
    match lease with
    | none => .ok (write (s.unbind key))
    | some id =>
      if (s.lease? id).isSome then .ok (write ((s.unbind key).bind key id))
      else .error (.notFound ("lease " ++ id.text ++ " not found"))

/-- Deletes a record; nothing is published where there is none. -/
def delete (s : Store) (key : String) : Except Failure Store :=
  if ¬s.isAvailable then .error .storeUnreachable
  else if s.records.contains key then
    let s := s.unbind key
    .ok ({ s with records := s.records.erase key }.publish (.delete key))
  else .ok s

/-- The stored pairs from the first key that is not below the start, as long as the keys begin
with it. In key order these are all the keys that begin with it. -/
def scanFrom (start : String) (records : List (String × Record)) : List (String × List UInt8) :=
  ((records.dropWhile fun r => r.1 < start).takeWhile fun r =>
    start.toList.isPrefixOf r.1.toList).map fun r => (r.1, r.2.value)

def scan (s : Store) (start : String) : Except Failure (List (String × List UInt8)) :=
  if ¬s.isAvailable then .error .storeUnreachable else .ok (scanFrom start s.records.entries)

/-- Grants the next lease. It takes the place of one that has the same number, which can only be
there when the numbers have gone round. -/
def grant (s : Store) : Except Failure (Store × LeaseId) :=
  if ¬s.isAvailable then .error .storeUnreachable
  else
    let others := s.leases.filter fun l => l.id ≠ s.nextLease
    .ok ({ s with leases := others ++ [⟨s.nextLease, ∅⟩], nextLease := s.nextLease + 1 },
      s.nextLease)

def keepAlive (s : Store) (id : LeaseId) : Except Failure Unit :=
  if ¬s.isAvailable then .error .storeUnreachable
  else if s.rejectsKeepAlive then .error .keepAliveRejected
  else if (s.lease? id).isSome then .ok ()
  else .error (.unavailable ("lease " ++ id.text ++ " expired"))

/-- Deletes a record whose lease is gone. -/
def drop (s : Store) (key : String) : Store :=
  if s.records.contains key then
    { s with records := s.records.erase key }.publish (.delete key)
  else s

/-- A lease ends, and with it the records bound to it, in key order. Nobody calls this: it happens
to the store, available or not. -/
def expire (s : Store) (id : LeaseId) : Store :=
  (s.boundKeys id).foldl drop { s with leases := s.leases.filter fun l => l.id ≠ id }

end Store

end ServiceMesh
