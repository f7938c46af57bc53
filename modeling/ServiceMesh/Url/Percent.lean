import ServiceMesh.Text.Ascii
import ServiceMesh.Text.Utf8

/-!
Percent coding. A byte that may not stand in a part of an address is written as a percent sign and
two hexadecimal digits; each part has its own set of such bytes.
-/

namespace ServiceMesh.Percent

/-- The bytes that stand for themselves nowhere. -/
def isControl (b : UInt8) : Bool := b < 0x20 || 0x7F ≤ b

/-- The bytes that are written with a percent sign in a query. -/
def inQuery (b : UInt8) : Bool := isControl b || b ∈ [0x20, 0x22, 0x23, 0x3C, 0x3E]

/-- The same for the query of a web address. -/
def inWebQuery (b : UInt8) : Bool := inQuery b || b = 0x27

def inFragment (b : UInt8) : Bool := isControl b || b ∈ [0x20, 0x22, 0x3C, 0x3E, 0x60]

def inPath (b : UInt8) : Bool := inFragment b || b ∈ [0x23, 0x3F, 0x7B, 0x7D]

def inUser (b : UInt8) : Bool :=
  inPath b || b ∈ [0x2F, 0x3A, 0x3B, 0x3D, 0x40, 0x5B, 0x5C, 0x5D, 0x5E, 0x7C]

/-- A byte as a percent sign and two digits. -/
def escape (b : UInt8) : List UInt8 :=
  [Ascii.percent, Ascii.hexDigitUpper (b.toNat / 16), Ascii.hexDigitUpper (b.toNat % 16)]

def encodeBytes (set : UInt8 → Bool) (bs : List UInt8) : List UInt8 :=
  bs.flatMap fun b => if set b then escape b else [b]

/-- Writes a text with the bytes of a set escaped. -/
def encode (set : UInt8 → Bool) (s : String) : String :=
  (Utf8.text? (encodeBytes set (Utf8.bytes s))).getD s

/-- Undoes the escapes; a percent sign without two digits behind it stands for itself. -/
def decode : List UInt8 → List UInt8
  | [] => []
  | b :: rest =>
    if b = Ascii.percent then
      match rest with
      | high :: low :: rest' =>
        match Ascii.hexDigit? high, Ascii.hexDigit? low with
        | some h, some l => (h * 16 + l).toUInt8 :: decode rest'
        | _, _ => b :: decode (high :: low :: rest')
      | rest => b :: decode rest
    else b :: decode rest

end ServiceMesh.Percent
