import ServiceMesh.Json.Basic
import ServiceMesh.Json.Text

/-! Writing JSON values without blanks. Every writer puts its text in front of what follows it. -/

namespace ServiceMesh.Json

mutual

def writeValue : Json → List UInt8 → List UInt8
  | .null, rest => Utf8.bytes "null" ++ rest
  | .bool true, rest => Utf8.bytes "true" ++ rest
  | .bool false, rest => Utf8.bytes "false" ++ rest
  | .num n, rest => n.write ++ rest
  | .str s, rest => Text.write s rest
  | .arr items, rest => Ascii.bracketOpen :: writeItems items (Ascii.bracketClose :: rest)
  | .obj members, rest => Ascii.braceOpen :: writeMembers members (Ascii.braceClose :: rest)

def writeItems : List Json → List UInt8 → List UInt8
  | [], rest => rest
  | [v], rest => writeValue v rest
  | v :: w :: vs, rest => writeValue v (Ascii.comma :: writeItems (w :: vs) rest)

def writeMembers : List (String × Json) → List UInt8 → List UInt8
  | [], rest => rest
  | [(k, v)], rest => Text.write k (Ascii.colon :: writeValue v rest)
  | (k, v) :: e :: es, rest =>
    Text.write k (Ascii.colon :: writeValue v (Ascii.comma :: writeMembers (e :: es) rest))

end

def write (v : Json) : List UInt8 := writeValue v []

/-- The text of an object whose members come in a fixed order of their own. -/
def writeRecord (members : List (String × Json)) : List UInt8 :=
  Ascii.braceOpen :: writeMembers members [Ascii.braceClose]

end ServiceMesh.Json
