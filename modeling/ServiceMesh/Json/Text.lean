import ServiceMesh.Text.Ascii
import ServiceMesh.Text.Utf8

/-!
JSON strings. A quote, a backslash and the control characters are written with an escape, all other
bytes stand for themselves. Reading accepts an escape for every character, and pairs escaped surrogates.
-/

namespace ServiceMesh.Json.Text

/-! ### Writing -/

/-- The written form of one byte of a text. -/
def escape (b : UInt8) : List UInt8 :=
  if b = Ascii.quote then [Ascii.backslash, Ascii.quote]
  else if b = Ascii.backslash then [Ascii.backslash, Ascii.backslash]
  else if b = 0x08 then [Ascii.backslash, 0x62]
  else if b = 0x09 then [Ascii.backslash, 0x74]
  else if b = 0x0A then [Ascii.backslash, 0x6E]
  else if b = 0x0C then [Ascii.backslash, 0x66]
  else if b = 0x0D then [Ascii.backslash, 0x72]
  else if b < 0x20 then
    [Ascii.backslash, 0x75, Ascii.zero, Ascii.zero,
      Ascii.hexDigit (b.toNat / 16), Ascii.hexDigit (b.toNat % 16)]
  else [b]

/-- The written form of a text, between quotes and in front of `rest`. -/
def write (s : String) (rest : List UInt8) : List UInt8 :=
  Ascii.quote :: (Utf8.bytes s).foldr (fun b r => escape b ++ r) (Ascii.quote :: rest)

/-! ### Reading -/

/-- Four hexadecimal digits. -/
def unit? : List UInt8 → Option (Nat × List UInt8)
  | a :: b :: c :: d :: rest => do
    let a ← Ascii.hexDigit? a
    let b ← Ascii.hexDigit? b
    let c ← Ascii.hexDigit? c
    let d ← Ascii.hexDigit? d
    return (((a * 16 + b) * 16 + c) * 16 + d, rest)
  | _ => none

/-- The character behind an escaped code unit. A high surrogate needs an escaped low one right
after it, and a low surrogate on its own is refused. -/
def scalar? (bs : List UInt8) : Option (Char × List UInt8) := do
  let (unit, rest) ← unit? bs
  if 0xD800 ≤ unit ∧ unit < 0xDC00 then
    match rest with
    | Ascii.backslash :: 0x75 :: rest =>
      let (low, rest) ← unit? rest
      if 0xDC00 ≤ low ∧ low < 0xE000 then
        return (Char.ofNat (0x10000 + (unit - 0xD800) * 0x400 + (low - 0xDC00)), rest)
      else none
    | _ => none
  else if 0xDC00 ≤ unit ∧ unit < 0xE000 then none
  else return (Char.ofNat unit, rest)

/-- The byte behind an escape letter other than that of a code unit. -/
def plainEscape? (b : UInt8) : Option UInt8 :=
  if b = Ascii.quote then some Ascii.quote
  else if b = Ascii.backslash then some Ascii.backslash
  else if b = Ascii.slash then some Ascii.slash
  else if b = 0x62 then some 0x08
  else if b = 0x66 then some 0x0C
  else if b = 0x6E then some 0x0A
  else if b = 0x72 then some 0x0D
  else if b = 0x74 then some 0x09
  else none

/-- The bytes of a string up to its closing quote, which is eaten, and what follows it. The fuel
bounds the number of characters. -/
def readBytes : Nat → List UInt8 → Option (List UInt8 × List UInt8)
  | 0, _ => none
  | _, [] => none
  | fuel + 1, b :: rest =>
    if b = Ascii.quote then some ([], rest)
    else if b = Ascii.backslash then
      match rest with
      | [] => none
      | e :: rest =>
        if e = 0x75 then do
          let (c, rest) ← scalar? rest
          let (s, rest) ← readBytes fuel rest
          return (String.utf8EncodeChar c ++ s, rest)
        else do
          let c ← plainEscape? e
          let (s, rest) ← readBytes fuel rest
          return (c :: s, rest)
    else if b < 0x20 then none
    else do
      let (s, rest) ← readBytes fuel rest
      return (b :: s, rest)

/-- A string after its opening quote; its bytes have to be UTF-8. -/
def read (bs : List UInt8) : Option (String × List UInt8) := do
  let (s, rest) ← readBytes (bs.length + 1) bs
  return (← Utf8.text? s, rest)

/-- Passes over a string after its opening quote. Neither the pairing of escaped surrogates nor the
encoding of its bytes is looked at. -/
def skip : Nat → List UInt8 → Option (List UInt8)
  | 0, _ => none
  | _, [] => none
  | fuel + 1, b :: rest =>
    if b = Ascii.quote then some rest
    else if b = Ascii.backslash then
      match rest with
      | [] => none
      | e :: rest =>
        if e = 0x75 then (unit? rest).bind fun u => skip fuel u.2
        else (plainEscape? e).bind fun _ => skip fuel rest
    else if b < 0x20 then none
    else skip fuel rest

end ServiceMesh.Json.Text
