import ServiceMesh.Store.Basic

/-!
Feeds: watchers of the keys with a given beginning. A feed is a place in the log of published
events. It keeps up with a bounded number of events only; one that has fallen further behind is
told how many it has missed and goes on with the newest ones.
-/

namespace ServiceMesh

structure Feed where
  start : String
  /-- How many of the published events the feed is done with. -/
  position : Nat
  deriving DecidableEq, Inhabited

namespace Feed

/-- How many unread events a feed can have, of whatever keys. -/
def capacity : Nat := 1024

def lagged (missed : Nat) : Failure :=
  .unavailable ("watch lagged: channel lagged by " ++ toString missed)

def wants (f : Feed) (e : Event) : Bool := f.start.toList.isPrefixOf e.key.toList

/-- How many events have been published since the feed looked last. -/
def unread (f : Feed) (s : Store) : Nat := s.published.size - f.position

/-- Reads on by one event, or by all those that were missed. Nothing comes out of an event that
the feed does not want; there is no reading on where nothing is unread. -/
def read? (f : Feed) (s : Store) : Option (Feed × Option (Except Failure Event)) :=
  if capacity < f.unread s then
    let missed := f.unread s - capacity
    some ({ f with position := f.position + missed }, some (.error (lagged missed)))
  else
    match s.published[f.position]? with
    | none => none
    | some e => some ({ f with position := f.position + 1 }, if f.wants e then some (.ok e) else none)

/-- Reads on up to the first thing that comes out. The fuel is the number of unread events. -/
def seek (s : Store) : Nat → Feed → Feed × Option (Except Failure Event)
  | 0, f => (f, none)
  | fuel + 1, f =>
    match f.read? s with
    | none => (f, none)
    | some (f, some item) => (f, some item)
    | some (f, none) => seek s fuel f

/-- What a feed yields next, if it yields anything now, and the feed after it. -/
def next (f : Feed) (s : Store) : Feed × Option (Except Failure Event) := seek s (f.unread s) f

/-- How often one look at a feed reads on. -/
def burst : Nat := 128

/-- What a feed yields while it reads on for so many times. -/
def take (s : Store) : Nat → Feed → Feed × List (Except Failure Event)
  | 0, f => (f, [])
  | n + 1, f =>
    match f.read? s with
    | none => (f, [])
    | some (f, item) =>
      let (f, items) := take s n f
      (f, item.toList ++ items)

/-- What one look at a feed yields. -/
def look (f : Feed) (s : Store) : Feed × List (Except Failure Event) := take s burst f

end Feed

namespace Store

/-- Starts to watch the keys with a given beginning. What was published before is not seen. -/
def watch (s : Store) (start : String) : Except Failure Feed :=
  if ¬s.isAvailable then .error .storeUnreachable else .ok ⟨start, s.published.size⟩

end Store

end ServiceMesh
