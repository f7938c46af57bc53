import ServiceMesh.Text.Ascii
import ServiceMesh.Text.Utf8
import ServiceMesh.Decimal.Shortest

/-!
JSON numbers. An integer stays exact while it fits in 64 bits; every other number is a binary
floating point number. A number is read digit by digit into a 64-bit significand and a decimal
exponent: digits that no longer fit are dropped and only counted, and the significand is then
scaled by one power of ten (more than one where the exponent is very small).
-/

namespace ServiceMesh.Json

inductive Number where
  | unsigned (n : UInt64)
  /-- A number below zero. -/
  | negative (n : Int64)
  | float (x : Float)
  deriving BEq, Inhabited

namespace Number

/-- The decimal digits of a natural number. -/
def decimal (n : Nat) : List UInt8 := (Nat.toDigits 10 n).map fun c => c.toNat.toUInt8

/-! ### Reading -/

/-- The digits at the front, and what follows them. -/
def spanDigits : List UInt8 → List UInt8 × List UInt8
  | [] => ([], [])
  | b :: rest =>
    if Ascii.isDigit b then
      let (digits, rest) := spanDigits rest
      (b :: digits, rest)
    else ([], b :: rest)

/-- Reads digits into a significand while it stays below `2 ^ 64`; the digits left over are
returned uneaten. -/
def accumulate (significand : Nat) : List UInt8 → Nat × List UInt8
  | [] => (significand, [])
  | b :: rest =>
    let next := significand * 10 + (b - 0x30).toNat
    if next < Nat.pow 2 64 then accumulate next rest else (significand, b :: rest)

/-- The powers of ten that a significand is scaled by at one stroke. -/
def largestPower : Nat := 308

/-- `x * 10 ^ e`, or nothing if that is too large for a finite number. -/
def scale (x : Float) (e : Int) : Nat → Option Float
  | 0 => some x
  | fuel + 1 =>
    if e.natAbs ≤ largestPower then
      let power := Float.ofScientific 1 false e.natAbs
      if 0 ≤ e then
        if (x * power).isInf then none else some (x * power)
      else some (x / power)
    else if x == 0.0 then some x
    else if 0 ≤ e then none
    else scale (x / Float.ofScientific 1 false largestPower) (e + largestPower) fuel

def ofParts (negative : Bool) (significand : Nat) (e : Int) : Option Number :=
  (scale significand.toUInt64.toFloat e 4).map fun x => .float (if negative then -x else x)

/-- The exponent after its letter: a sign that may be missing, and at least one digit. -/
def exponent? (bs : List UInt8) : Option (Bool × List UInt8 × List UInt8) :=
  let (down, bs) := match bs with
    | Ascii.plus :: rest => (false, rest)
    | Ascii.minus :: rest => (true, rest)
    | bs => (false, bs)
  match spanDigits bs with
  | ([], _) => none
  | (digits, rest) => some (down, digits, rest)

def natOf (digits : List UInt8) : Nat :=
  digits.foldl (fun n b => n * 10 + (b - 0x30).toNat) 0

/-- An exponent beyond 32 bits scales to zero or, unless the significand is zero, fails. -/
def withExponent (negative : Bool) (significand : Nat) (before : Int) (bs : List UInt8) :
    Option (Number × List UInt8) := do
  match bs with
  | b :: rest =>
    if b = 0x65 ∨ b = 0x45 then
      let (down, digits, rest) ← exponent? rest
      let e := natOf digits
      if e < Nat.pow 2 31 then
        let x ← ofParts negative significand (if down then before - e else before + e)
        return (x, rest)
      else if significand ≠ 0 ∧ ¬down then none
      else return (.float (if negative then -0.0 else 0.0), rest)
    else return (← ofParts negative significand before, bs)
  | [] => return (← ofParts negative significand before, [])

/-- An integer: above 64 bits, and for minus zero, it is a floating point number. -/
def ofInteger (negative : Bool) (significand : Nat) : Number :=
  if negative then
    if 0 < significand ∧ significand ≤ Nat.pow 2 63 then .negative (Int64.ofInt (-(significand : Int)))
    else .float (-significand.toUInt64.toFloat)
  else .unsigned significand.toUInt64

/-- Whether an exponent letter comes next. -/
def startsExponent : List UInt8 → Bool
  | b :: _ => b = 0x65 || b = 0x45
  | [] => false

/-- What follows the integer digits. `dropped` counts integer digits that did not fit. -/
def afterInteger (negative : Bool) (significand dropped : Nat) (bs : List UInt8) :
    Option (Number × List UInt8) :=
  match bs with
  | Ascii.dot :: rest =>
    match spanDigits rest with
    | ([], _) => none
    | (digits, rest) =>
      let (significand, left) := accumulate significand digits
      let kept := digits.length - left.length
      withExponent negative significand ((dropped : Int) - kept) rest
  | bs =>
    if dropped = 0 && !startsExponent bs then some (ofInteger negative significand, bs)
    else withExponent negative significand dropped bs

/-- A number without its sign: no leading zeros, at least one digit after a point. -/
def readUnsigned (negative : Bool) (bs : List UInt8) : Option (Number × List UInt8) :=
  match spanDigits bs with
  | ([], _) => none
  | (Ascii.zero :: _ :: _, _) => none
  | (digits, rest) =>
    let (significand, left) := accumulate 0 digits
    afterInteger negative significand left.length rest

def read (bs : List UInt8) : Option (Number × List UInt8) :=
  match bs with
  | Ascii.minus :: rest => readUnsigned true rest
  | bs => readUnsigned false bs

/-- Passes over a number of any size. -/
def skip (bs : List UInt8) : Option (List UInt8) := do
  let bs := match bs with
    | Ascii.minus :: rest => rest
    | bs => bs
  let rest ← match spanDigits bs with
    | ([], _) => none
    | (Ascii.zero :: _ :: _, _) => none
    | (_, rest) => some rest
  let rest ← match rest with
    | Ascii.dot :: rest =>
      match spanDigits rest with
      | ([], _) => none
      | (_, rest) => some rest
    | rest => some rest
  match rest with
  | b :: after =>
    if b = 0x65 ∨ b = 0x45 then (exponent? after).map (·.2.2) else some rest
  | [] => some []

/-! ### Writing -/

/-- Mantissa and exponent of the size of a finite number. -/
def parts (x : Float) : Nat × Int :=
  let bits := x.toBits.toNat
  let fraction : Nat := bits % Nat.pow 2 52
  let biased : Nat := bits / Nat.pow 2 52 % Nat.pow 2 11
  if biased = 0 then (fraction, -1074) else (fraction + Nat.pow 2 52, (biased : Int) - 1075)

/-- Digits with their point: positional from `10 ^ -5` up to below `10 ^ 16`, with an exponent
outside of that; a whole number keeps a zero after its point. -/
def layOut (d : Decimal.Digits) : List UInt8 :=
  let digits := decimal d.digits
  let point : Int := digits.length + d.exponent
  if 0 ≤ d.exponent ∧ point ≤ 16 then
    digits ++ List.replicate d.exponent.toNat Ascii.zero ++ [Ascii.dot, Ascii.zero]
  else if 0 < point ∧ point ≤ 16 then
    digits.take point.toNat ++ [Ascii.dot] ++ digits.drop point.toNat
  else if -5 < point ∧ point ≤ 0 then
    [Ascii.zero, Ascii.dot] ++ List.replicate (-point).toNat Ascii.zero ++ digits
  else
    let e := point - 1
    let power := (if e < 0 then [Ascii.minus] else [Ascii.plus]) ++ decimal e.natAbs
    digits.take 1 ++ (if digits.length = 1 then [] else Ascii.dot :: digits.drop 1)
      ++ 0x65 :: power

/-- A number that is not finite has no JSON form and is written as null. -/
def writeFloat (x : Float) : List UInt8 :=
  if x.isNaN || x.isInf then Utf8.bytes "null"
  else
    let sign := if x.toBits.toNat / Nat.pow 2 63 = 1 then [Ascii.minus] else []
    let (mantissa, e) := parts x
    if mantissa = 0 then sign ++ [Ascii.zero, Ascii.dot, Ascii.zero]
    else sign ++ layOut (Decimal.shortest mantissa e)

def write : Number → List UInt8
  | .unsigned n => decimal n.toNat
  | .negative n => Ascii.minus :: decimal n.toInt.natAbs
  | .float x => writeFloat x

end Number

end ServiceMesh.Json
