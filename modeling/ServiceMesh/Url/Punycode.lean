/-!
Punycode: a label with letters beyond ASCII, written in letters, digits and hyphens. The ASCII
letters come first; each other letter follows as the distance, in code points and places, from the
one before it, in a number system whose thresholds adapt.
-/

namespace ServiceMesh.Punycode

def base : Nat := 36

/-- The value above which a digit at a place is followed by another one. -/
def threshold (k bias : Nat) : Nat :=
  if k ≤ bias + 1 then 1 else if bias + 26 ≤ k then 26 else k - bias

/-- The scale of the next thresholds: how often a distance can be divided, and what remains. -/
def adaptLoop (delta k : Nat) : Nat × Nat :=
  if 455 < delta then adaptLoop (delta / 35) (k + base) else (delta, k)
termination_by delta

def adapt (delta count : Nat) (isFirst : Bool) : Nat :=
  let delta := if isFirst then delta / 700 else delta / 2
  let (delta, k) := adaptLoop (delta + delta / count) 0
  k + 36 * delta / (delta + 38)

def digit (d : Nat) : Char := if d < 26 then Char.ofNat (97 + d) else Char.ofNat (22 + d)

def digit? (c : Char) : Option Nat :=
  if 'a' ≤ c ∧ c ≤ 'z' then some (c.toNat - 97)
  else if 'A' ≤ c ∧ c ≤ 'Z' then some (c.toNat - 65)
  else if '0' ≤ c ∧ c ≤ '9' then some (c.toNat - 22)
  else none

/-- The digits of a distance. The fuel is more than it can have. -/
def digits (bias : Nat) : Nat → Nat → Nat → List Char
  | 0, _, _ => []
  | fuel + 1, k, q =>
    let t := threshold k bias
    if q < t then [digit q]
    else digit (t + (q - t) % (base - t)) :: digits bias fuel (k + base) ((q - t) / (base - t))

/-- What is known while the letters are written in the order of their code points. -/
structure Encoder where
  delta : Nat := 0
  bias : Nat := 72
  handled : Nat
  out : List Char

/-- Writes one letter at all its places. -/
def Encoder.step (basic : Nat) (n : Nat) (e : Encoder) (c : Char) : Encoder :=
  if c.toNat < n then { e with delta := e.delta + 1 }
  else if c.toNat = n then
    { delta := 0
      bias := adapt e.delta (e.handled + 1) (e.handled = basic)
      handled := e.handled + 1
      out := e.out ++ digits e.bias 32 base e.delta }
  else e

/-- Writes the letters from a code point on. The fuel is the number of letters. -/
def encodeFrom (label : List Char) (basic : Nat) : Nat → Nat → Encoder → List Char
  | 0, _, e => e.out
  | fuel + 1, n, e =>
    match ((label.map Char.toNat).filter (n ≤ ·)).min? with
    | none => e.out
    | some m =>
      let e := { e with delta := e.delta + (m - n) * (e.handled + 1) }
      let e := label.foldl (Encoder.step basic m) e
      encodeFrom label basic fuel (m + 1) { e with delta := e.delta + 1 }

def encode (label : List Char) : List Char :=
  let plain := label.filter fun c => c.toNat < 0x80
  let out := if plain = [] then [] else plain ++ ['-']
  encodeFrom label plain.length label.length 0x80 { handled := plain.length, out }

/-- Reads the digits of one distance. -/
def distance? (bias : Nat) : List Char → Nat → Nat → Nat → Option (Nat × List Char)
  | [], _, _, _ => none
  | c :: rest, k, weight, sum => do
    let d ← digit? c
    let sum := sum + d * weight
    let t := threshold k bias
    if d < t then some (sum, rest) else distance? bias rest (k + base) (weight * (base - t)) sum

/-- Reads one letter after the other into its place. The fuel is the number of digits. -/
def decodeFrom : Nat → List Char → Nat → Nat → Nat → List Char → Option (List Char)
  | _, [], _, _, _, out => some out
  | 0, _, _, _, _, _ => none
  | fuel + 1, rest, n, i, bias, out => do
    let (d, rest) ← distance? bias rest base 1 0
    let count := out.length + 1
    let n := n + (i + d) / count
    let place := (i + d) % count
    if n.isValidChar then
      decodeFrom fuel rest n (place + 1) (adapt d count (i = 0))
        (out.take place ++ Char.ofNat n :: out.drop place)
    else none

/-- The label that a written one stands for. -/
def decode? (written : List Char) : Option (List Char) :=
  let digits := (written.reverse.takeWhile (· ≠ '-')).reverse
  let plain := (written.take (written.length - digits.length)).dropLast
  decodeFrom digits.length digits 0x80 0 72 plain

end ServiceMesh.Punycode
