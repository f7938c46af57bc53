import ServiceMesh.Toml.Basic
import ServiceMesh.Toml.Text

/-!
TOML literals: numbers, truth values, dates and times. A literal is the longest run of characters
that may stand in one, and has to have one of their forms as a whole.
-/

namespace ServiceMesh.Toml.Literal

def isDigitOf (radix : Nat) (c : Char) : Bool :=
  match Text.hex? [c] with
  | some d => d < radix
  | none => false

def isDigit (c : Char) : Bool := isDigitOf 10 c

/-- A character that may stand in a literal. -/
def isLiteralChar (c : Char) : Bool :=
  isDigit c || ('a' ≤ c && c ≤ 'z') || ('A' ≤ c && c ≤ 'Z') ||
    c = '_' || c = '+' || c = '-' || c = '.' || c = ':'

/-- Digits without the underscores between them; an underscore needs a digit on both sides. -/
def digits? (radix : Nat) : List Char → Option (List Char)
  | [] => none
  | [c] => if isDigitOf radix c then some [c] else none
  | c :: '_' :: rest =>
    if isDigitOf radix c then (digits? radix rest).map (c :: ·) else none
  | c :: rest => if isDigitOf radix c then (digits? radix rest).map (c :: ·) else none

def number (radix : Nat) (digits : List Char) : Nat :=
  digits.foldl (fun n c => n * radix + ((Text.hex? [c]).getD 0)) 0

/-- Takes a sign off; says whether it is a minus. -/
def sign : List Char → Bool × List Char
  | '-' :: rest => (true, rest)
  | '+' :: rest => (false, rest)
  | cs => (false, cs)

/-- Digits of a number that has no leading zero. -/
def wholeDigits? (cs : List Char) : Option (List Char) := do
  let ds ← digits? 10 cs
  if ds.head? = some '0' ∧ 1 < ds.length then none else some ds

/-- The whole numbers that can be told apart have up to 128 bits. -/
def int? (cs : List Char) : Option Int := do
  let i : Int ← match cs with
    | '0' :: 'x' :: rest => (digits? 16 rest).map fun ds => (number 16 ds : Int)
    | '0' :: 'o' :: rest => (digits? 8 rest).map fun ds => (number 8 ds : Int)
    | '0' :: 'b' :: rest => (digits? 2 rest).map fun ds => (number 2 ds : Int)
    | _ =>
      let (negative, rest) := sign cs
      (wholeDigits? rest).map fun ds => if negative then -(number 10 ds : Int) else number 10 ds
  if -(Nat.pow 2 127 : Int) ≤ i ∧ i < Nat.pow 2 128 then some i else none

/-- Whether `n * 10 ^ e` is too large for a binary floating point number of 64 bits. -/
def isTooLarge (n : Nat) (e : Int) : Bool :=
  if n = 0 ∨ e < 0 ∧ n < Nat.pow 10 300 then false
  else if 400 ≤ e then true
  else
    let bound := Nat.pow 2 1024 - Nat.pow 2 970
    if 0 ≤ e then bound ≤ n * Nat.pow 10 e.toNat
    else (n.log2 : Int) > 3 * e.natAbs + 1023 && bound * Nat.pow 10 e.natAbs ≤ n

/-- The parts of a number with a fraction, an exponent or both: the digits of its significand, and
the power of ten that they are scaled by. -/
def fraction? (cs : List Char) : Option (Nat × Int) := do
  let rest := (sign cs).2
  let isMark (c : Char) : Bool := c = 'e' || c = 'E'
  let significand := rest.takeWhile fun c => !isMark c
  let exponent : Int ← match rest.drop significand.length with
    | [] => some 0
    | _ :: e =>
      let (negative, e) := sign e
      (digits? 10 e).map fun ds => if negative then -(number 10 ds : Int) else number 10 ds
  let whole := significand.takeWhile (· ≠ '.')
  let wholeDigits ← wholeDigits? whole
  match significand.drop whole.length with
  | [] => if rest.any isMark then some (number 10 wholeDigits, exponent) else none
  | _ :: f => do
    let ds ← digits? 10 f
    return (number 10 (wholeDigits ++ ds), exponent - ds.length)

def isFloat (cs : List Char) : Bool :=
  let rest := (sign cs).2
  rest = "inf".toList || rest = "nan".toList ||
    match fraction? cs with
    | some (n, e) => !isTooLarge n e
    | none => false

/-! ### Dates and times -/

/-- A number of exactly so many digits within a range. -/
def field? (width low high : Nat) (cs : List Char) : Option Nat :=
  if cs.length = width ∧ cs.all isDigit then
    let n := number 10 cs
    if low ≤ n ∧ n ≤ high then some n else none
  else none

def isLeap (year : Nat) : Bool := year % 4 = 0 && year % 100 ≠ 0 || year % 400 = 0

def daysIn (year month : Nat) : Nat :=
  if month = 2 then if isLeap year then 29 else 28
  else if month ∈ [4, 6, 9, 11] then 30
  else 31

/-- Year, month and day with hyphens between them. -/
def isDate (cs : List Char) : Bool :=
  match cs with
  | [a, b, c, d, '-', e, f, '-', g, h] =>
    match field? 4 0 9999 [a, b, c, d], field? 2 1 12 [e, f] with
    | some year, some month => (field? 2 1 (daysIn year month) [g, h]).isSome
    | _, _ => false
  | _ => false

/-- Hour, minute and second with colons between them, and a fraction of the second. -/
def isTime (cs : List Char) : Bool :=
  match cs with
  | a :: b :: ':' :: c :: d :: ':' :: e :: f :: rest =>
    (field? 2 0 23 [a, b]).isSome && (field? 2 0 59 [c, d]).isSome && (field? 2 0 60 [e, f]).isSome &&
      match rest with
      | [] => true
      | '.' :: digits => digits ≠ [] && digits.all isDigit
      | _ => false
  | _ => false

def isOffset (cs : List Char) : Bool :=
  match cs with
  | [] => true
  | [c] => c = 'Z' || c = 'z'
  | [s, a, b, ':', c, d] =>
    (s = '+' || s = '-') && (field? 2 0 23 [a, b]).isSome && (field? 2 0 59 [c, d]).isSome
  | _ => false

def isTimeChar (c : Char) : Bool := isDigit c || c = ':' || c = '.'

def isDateTime (cs : List Char) : Bool :=
  match cs.drop 10 with
  | [] => isDate cs
  | mark :: rest =>
    (mark = 'T' || mark = 't' || mark = ' ') && isDate (cs.take 10) &&
      isTime (rest.takeWhile isTimeChar) && isOffset (rest.dropWhile isTimeChar)

/-! ### Reading -/

/-- The characters of a literal at the front. Between a date and a time there may be one space. -/
def span (cs : List Char) : List Char × List Char :=
  let front := cs.takeWhile isLiteralChar
  let rest := cs.drop front.length
  match rest with
  | ' ' :: c :: _ =>
    if isDate front ∧ isDigit c then
      let time := (rest.drop 1).takeWhile isLiteralChar
      (front ++ ' ' :: time, rest.drop (1 + time.length))
    else (front, rest)
  | _ => (front, rest)

def ofChars? (cs : List Char) : Option Value :=
  if cs = "true".toList then some (.bool true)
  else if cs = "false".toList then some (.bool false)
  else if isDateTime cs ∨ isTime cs then some (.date (String.ofList cs))
  else
    match int? cs with
    | some i => some (.int i)
    | none => if isFloat cs then some (.float (String.ofList cs)) else none

def read? (cs : List Char) : Option (Value × List Char) :=
  let (front, rest) := span cs
  (ofChars? front).map fun v => (v, rest)

end ServiceMesh.Toml.Literal
