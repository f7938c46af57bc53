import ServiceMesh.Text.Ascii

/-! Bytes and numbers in hexadecimal digits. -/

namespace ServiceMesh.Hex

/-- The lower-case hexadecimal digit of a number below sixteen, as a character. -/
def digit (n : Nat) : Char := Char.ofNat (Ascii.hexDigit n).toNat

/-- Two digits for each byte. -/
def ofBytes (bs : List UInt8) : String :=
  String.ofList (bs.flatMap fun b => [digit (b.toNat / 16), digit (b.toNat % 16)])

/-- A number without leading zeros. -/
def ofNat (n : Nat) : String := String.ofList (Nat.toDigits 16 n)

/-- Reads pairs of digits; an odd digit or a foreign character is refused. -/
def toBytes? : List Char → Option (List UInt8)
  | [] => some []
  | a :: b :: rest => do
    let high ← Ascii.hexDigit? a.toNat.toUInt8
    let low ← Ascii.hexDigit? b.toNat.toUInt8
    let bs ← toBytes? rest
    return (high * 16 + low).toUInt8 :: bs
  | _ => none

end ServiceMesh.Hex
