import ServiceMesh.Text.Ascii

/-!
TOML strings. There are four kinds: between single quotes every character stands for itself, between
double quotes a backslash starts an escape, and three quotes of a kind hold several lines. Each
reader starts behind the opening quotes and goes up to the closing ones.
-/

namespace ServiceMesh.Toml.Text

/-- A control character that may not stand in a text or a comment. -/
def isControl (c : Char) : Bool := c.toNat < 0x20 && c ≠ '\t' || c.toNat = 0x7F

def isBlank (c : Char) : Bool := c = ' ' || c = '\t'

/-- The character behind a backslash and a letter. -/
def escape? (c : Char) : Option Char :=
  if c = 'b' then some '\x08'
  else if c = 't' then some '\t'
  else if c = 'n' then some '\n'
  else if c = 'f' then some '\x0c'
  else if c = 'r' then some '\r'
  else if c = '"' then some '"'
  else if c = '\\' then some '\\'
  else none

/-- The number that hexadecimal digits of either case stand for. -/
def hex? (digits : List Char) : Option Nat :=
  digits.foldlM (fun n c =>
    if c.toNat < 0x80 then (Ascii.hexDigit? c.toNat.toUInt8).map (n * 16 + ·) else none) 0

/-- The character of a code point that is given in digits. -/
def scalar? (digits : List Char) : Option Char := do
  let n ← hex? digits
  if n.isValidChar then some (Char.ofNat n) else none

/-- Puts a character in front of the text that was read behind it. -/
def consText (c : Option Char) (r : Option (List Char × List Char)) :
    Option (List Char × List Char) :=
  match c, r with
  | some c, some (cs, rest) => some (c :: cs, rest)
  | _, _ => none

def readBasic : List Char → Option (List Char × List Char)
  | [] => none
  | '\\' :: 'u' :: a :: b :: c :: d :: rest => consText (scalar? [a, b, c, d]) (readBasic rest)
  | '\\' :: 'U' :: a :: b :: c :: d :: e :: f :: g :: h :: rest =>
    consText (scalar? [a, b, c, d, e, f, g, h]) (readBasic rest)
  | '\\' :: c :: rest => consText (escape? c) (readBasic rest)
  | c :: rest =>
    if c = '"' then some ([], rest)
    else if c = '\\' ∨ isControl c then none
    else consText (some c) (readBasic rest)

def readLiteral : List Char → Option (List Char × List Char)
  | [] => none
  | c :: rest =>
    if c = '\'' then some ([], rest)
    else if isControl c then none
    else consText (some c) (readLiteral rest)

/-- Whether a line ends here, but for blanks. -/
def endsLine (cs : List Char) : Bool :=
  match cs.dropWhile isBlank with
  | '\n' :: _ => true
  | '\r' :: '\n' :: _ => true
  | _ => false

/-- The text ends at three quotes, before which it may have up to two quotes of its own. -/
def closing? (q : Char) : List Char → Option (List Char × List Char)
  | a :: b :: c :: rest =>
    if a = q ∧ b = q ∧ c = q then
      match rest with
      | d :: e :: r =>
        if d = q ∧ e = q then some ([q, q], r)
        else if d = q then some ([q], e :: r)
        else some ([], rest)
      | [d] => if d = q then some ([q], []) else some ([], rest)
      | [] => some ([], rest)
    else none
  | _ => none

/-- While `joining`, line ends and blanks are passed over, up to the next character of the text. -/
def readLines (joining : Bool) : List Char → Option (List Char × List Char)
  | [] => none
  | '\\' :: 'u' :: a :: b :: c :: d :: rest =>
    consText (scalar? [a, b, c, d]) (readLines false rest)
  | '\\' :: 'U' :: a :: b :: c :: d :: e :: f :: g :: h :: rest =>
    consText (scalar? [a, b, c, d, e, f, g, h]) (readLines false rest)
  | '\\' :: c :: rest =>
    if endsLine (c :: rest) then readLines true (c :: rest)
    else consText (escape? c) (readLines false rest)
  | '\r' :: '\n' :: rest =>
    if joining then readLines true rest
    else consText (some '\r') (consText (some '\n') (readLines false rest))
  | c :: rest =>
    match closing? '"' (c :: rest) with
    | some r => some r
    | none =>
      if joining ∧ (c = '\n' ∨ isBlank c) then readLines true rest
      else if c = '\n' then consText (some c) (readLines false rest)
      else if c = '\\' ∨ isControl c then none
      else consText (some c) (readLines false rest)

def readLiteralLines : List Char → Option (List Char × List Char)
  | [] => none
  | '\r' :: '\n' :: rest => consText (some '\r') (consText (some '\n') (readLiteralLines rest))
  | c :: rest =>
    match closing? '\'' (c :: rest) with
    | some r => some r
    | none =>
      if isControl c ∧ c ≠ '\n' then none else consText (some c) (readLiteralLines rest)

/-- A line end right behind the opening quotes does not belong to the text. -/
def dropFirstLineEnd : List Char → List Char
  | '\n' :: rest => rest
  | '\r' :: '\n' :: rest => rest
  | cs => cs

/-- A string of any kind, from its opening quotes on. -/
def read? : List Char → Option (String × List Char)
  | '"' :: '"' :: '"' :: rest => asText (readLines false (dropFirstLineEnd rest))
  | '"' :: rest => asText (readBasic rest)
  | '\'' :: '\'' :: '\'' :: rest => asText (readLiteralLines (dropFirstLineEnd rest))
  | '\'' :: rest => asText (readLiteral rest)
  | _ => none
where
  asText (r : Option (List Char × List Char)) : Option (String × List Char) :=
    r.map fun r => (String.ofList r.1, r.2)

end ServiceMesh.Toml.Text
