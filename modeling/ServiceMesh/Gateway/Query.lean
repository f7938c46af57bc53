import ServiceMesh.Json.Basic
import ServiceMesh.Url.Basic

/-!
The query of an address as a JSON object: a name that occurs once has its value as a text, any
other name has the array of its values in their order.
-/

namespace ServiceMesh.Query

/-- Puts one more value under a name. -/
def add (members : List (String × Json)) (pair : String × String) : List (String × Json) :=
  let value := Json.str pair.2
  let all := match Entries.lookup pair.1 members with
    | none => value
    | some (.arr values) => .arr (values ++ [value])
    | some first => .arr [first, value]
  Entries.insert pair.1 all members

def ofPairs (pairs : List (String × String)) : Json := .obj (pairs.foldl add [])

/-- What relative addresses are read on top of. -/
def home : Url := { scheme := "http", host := some "localhost", path := "/" }

def pairs? (uri : String) : Option (List (String × String)) :=
  ((Url.parse? uri).or (Url.parse? uri (some home))).map Url.pairs

/-- The query of an address; an address that cannot be read has none. -/
def toJson (uri : String) : Json := ofPairs ((pairs? uri).getD [])

end ServiceMesh.Query
