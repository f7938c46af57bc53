/-! What a store tells its watchers: a record was written, or one was deleted. -/

namespace ServiceMesh

inductive Event where
  | put (key : String) (value : List UInt8)
  | delete (key : String)
  deriving DecidableEq, Inhabited

namespace Event

def key : Event → String
  | put k _ => k
  | delete k => k

end Event

end ServiceMesh
