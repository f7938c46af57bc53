import ServiceMesh.Url.Percent

/-!
Queries as lists of names and values. Pairs are separated by ampersands, a name ends at the first
equals sign, and a plus sign stands for a space. Bytes that are not text are replaced.
-/

namespace ServiceMesh.Form

/-- The pieces between the ampersands of a query. -/
def pieces (sep : UInt8) : List UInt8 → List (List UInt8)
  | [] => [[]]
  | b :: rest =>
    if b = sep then [] :: pieces sep rest
    else
      match pieces sep rest with
      | [] => [[b]]
      | piece :: more => (b :: piece) :: more

/-- The replacement character in UTF-8. -/
def replacement : List UInt8 := [0xEF, 0xBF, 0xBD]

/-- How many bytes follow the first byte of a character, and the range of the first of them. -/
def lead? (b : UInt8) : Option (Nat × UInt8 × UInt8) :=
  if 0xC2 ≤ b ∧ b ≤ 0xDF then some (1, 0x80, 0xBF)
  else if b = 0xE0 then some (2, 0xA0, 0xBF)
  else if b = 0xED then some (2, 0x80, 0x9F)
  else if 0xE1 ≤ b ∧ b ≤ 0xEF then some (2, 0x80, 0xBF)
  else if b = 0xF0 then some (3, 0x90, 0xBF)
  else if 0xF1 ≤ b ∧ b ≤ 0xF3 then some (3, 0x80, 0xBF)
  else if b = 0xF4 then some (3, 0x80, 0x8F)
  else none

/-- The bytes at the front that may continue a character, at most so many. -/
def continuation : Nat → UInt8 → UInt8 → List UInt8 → List UInt8
  | 0, _, _, _ => []
  | _, _, _, [] => []
  | n + 1, low, high, b :: rest =>
    if low ≤ b ∧ b ≤ high then b :: continuation n 0x80 0xBF rest else []

/-- Replaces what is not UTF-8: each longest beginning of a character that is broken off, and each
other byte, by one replacement character. The fuel is the number of bytes. -/
def repairFuel : Nat → List UInt8 → List UInt8
  | 0, _ => []
  | _, [] => []
  | fuel + 1, b :: rest =>
    if b < 0x80 then b :: repairFuel fuel rest
    else
      match lead? b with
      | none => replacement ++ repairFuel fuel rest
      | some (count, low, high) =>
        let more := continuation count low high rest
        let rest := rest.drop more.length
        if more.length = count then b :: more ++ repairFuel fuel rest
        else replacement ++ repairFuel fuel rest

/-- The text of bytes that may not be text. -/
def textOf (bs : List UInt8) : String := (Utf8.text? (repairFuel bs.length bs)).getD ""

/-- A name or a value as it was meant. -/
def decodePart (bs : List UInt8) : String :=
  textOf (Percent.decode (bs.map fun b => if b = Ascii.plus then Ascii.space else b))

/-- The pairs of a query. Empty pieces are no pairs; a piece without an equals sign has an empty
value. -/
def pairs (query : List UInt8) : List (String × String) :=
  ((pieces Ascii.ampersand query).filter (· ≠ [])).map fun piece =>
    let name := piece.takeWhile (· ≠ Ascii.equals)
    (decodePart name, decodePart ((piece.drop name.length).drop 1))

end ServiceMesh.Form
