/-!
The shortest decimal that reads back as a binary floating point number. A finite number is a
mantissa and a power of two; the reals that round to it form an interval, and the decimal with the
fewest digits inside that interval is chosen, the nearest one if there are two.
-/

namespace ServiceMesh.Decimal

/-- A positive decimal: `digits * 10 ^ exponent`. -/
structure Digits where
  digits : Nat
  exponent : Int
  deriving DecidableEq, Repr

/-- A positive number `mantissa * 2 ^ exponent` in units of a quarter of its last place, together
with the ends of the interval that rounds to it. The three share the divisor `scale`. -/
structure Interval where
  low : Nat
  value : Nat
  high : Nat
  scale : Nat
  closed : Bool

/-- Below a power of two the gap to the next number is half as wide, except at the smallest one. -/
def interval (mantissa : Nat) (exponent : Int) : Interval :=
  let up := Nat.pow 2 (exponent - 2).toNat
  let down := Nat.pow 2 (2 - exponent).toNat
  let below := if mantissa = Nat.pow 2 52 ∧ -1074 < exponent then 1 else 2
  { low := (4 * mantissa - below) * up
    value := 4 * mantissa * up
    high := (4 * mantissa + 2) * up
    scale := down
    closed := mantissa % 2 = 0 }

def Interval.contains (i : Interval) (num den : Nat) : Bool :=
  if i.closed then i.low * den ≤ num * i.scale && num * i.scale ≤ i.high * den
  else i.low * den < num * i.scale && num * i.scale < i.high * den

/-- The least `s` with `den ≤ num * Nat.pow 10 s`, looked for below `s + fuel`. -/
def leadingZeros (num den : Nat) : Nat → Nat → Nat
  | 0, s => s
  | fuel + 1, s => if den ≤ num * Nat.pow 10 s then s else leadingZeros num den fuel (s + 1)

/-- The position of the first digit: the greatest power of ten that is not above the value. -/
def firstPlace (i : Interval) : Int :=
  if i.scale ≤ i.value then ((Nat.toDigits 10 (i.value / i.scale)).length : Int) - 1
  else -(leadingZeros i.value i.scale 400 0 : Int)

/-- The numbers `c * 10 ^ place` next to the value, as fractions of one denominator. -/
def candidate? (i : Interval) (place : Int) : Option Digits :=
  let up := Nat.pow 10 place.toNat
  let down := Nat.pow 10 (-place).toNat
  let lower := i.value * down / (i.scale * up)
  let upper := lower + 1
  let lowerIn := i.contains (lower * up) down
  let upperIn := i.contains (upper * up) down
  -- distances to the value, over the common denominator
  let below := i.value * down - lower * up * i.scale
  let above := upper * up * i.scale - i.value * down
  if lowerIn && upperIn then
    if below < above || (below == above && lower % 2 == 0) then some ⟨lower, place⟩
    else some ⟨upper, place⟩
  else if lowerIn then some ⟨lower, place⟩
  else if upperIn then some ⟨upper, place⟩
  else none

/-- Tries ever finer grids, starting with that of one digit. -/
def search (i : Interval) (place : Int) : Nat → Digits
  | 0 => ⟨i.value * Nat.pow 10 (-place).toNat / (i.scale * Nat.pow 10 place.toNat), place⟩
  | fuel + 1 =>
    match candidate? i place with
    | some d => d
    | none => search i (place - 1) fuel

/-- Drops zeros at the end, which appear where the nearest grid point is a power of ten. -/
def Digits.trim (d : Digits) : Nat → Digits
  | 0 => d
  | fuel + 1 =>
    if d.digits % 10 = 0 then Digits.trim ⟨d.digits / 10, d.exponent + 1⟩ fuel else d

/-- The shortest decimal that reads back as `mantissa * 2 ^ exponent`. -/
def shortest (mantissa : Nat) (exponent : Int) : Digits :=
  let i := interval mantissa exponent
  (search i (firstPlace i) 17).trim 17

end ServiceMesh.Decimal
