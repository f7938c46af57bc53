import ServiceMesh.Text.Ascii
import ServiceMesh.Text.Utf8

/-!
Header fields. A message may hold several values under one name; what counts is the order of the
values of each name. Names are kept in lower case.
-/

namespace ServiceMesh.Http

structure Header where
  name : String
  value : List UInt8
  deriving DecidableEq, Repr, Inhabited

namespace Header

/-- A character that may stand in the name of a header, or in a method. -/
def isTokenChar (c : Char) : Bool :=
  c.isAlphanum || c ∈ ['!', '#', '$', '%', '&', '\'', '*', '+', '-', '.', '^', '_', '\x60', '|', '~']

def isToken (s : String) : Bool := s ≠ "" && s.toList.all isTokenChar

/-- A byte that may stand in a value: anything but control characters, of which the tab is
allowed. -/
def isValueByte (b : UInt8) : Bool := b = Ascii.tab || 0x20 ≤ b && b ≠ 0x7F

def isLegalValue (bs : List UInt8) : Bool := bs.all isValueByte

/-- A byte of a value that reads as text. -/
def isReadable (b : UInt8) : Bool := b = Ascii.tab || Ascii.isVisible b

/-- A header as it was received, if its name and its value are legal. -/
def make? (name : String) (value : List UInt8) : Option Header :=
  if isToken name && isLegalValue value then
    some ⟨String.ofList (name.toList.map Char.toLower), value⟩
  else none

end Header

abbrev Headers := List Header

namespace Headers

def values (hs : Headers) (name : String) : List (List UInt8) :=
  (hs.filter fun h => h.name = name).map (·.value)

def first? (hs : Headers) (name : String) : Option (List UInt8) := (hs.values name).head?

/-- The first value of a name as a text, if all of it is visible. -/
def text? (hs : Headers) (name : String) : Option String :=
  match hs.first? name with
  | some v => if v.all Header.isReadable then Utf8.text? v else none
  | none => none

/-- The first value of a name as a text; empty where there is none that can be read. -/
def text (hs : Headers) (name : String) : String := (hs.text? name).getD ""

def erase (hs : Headers) (name : String) : Headers := hs.filter fun h => h.name ≠ name

/-- Replaces all values of a name by one. -/
def set (hs : Headers) (name : String) (value : List UInt8) : Headers :=
  hs.erase name ++ [⟨name, value⟩]

/-- Adds a value behind those that the name has. -/
def add (hs : Headers) (name : String) (value : List UInt8) : Headers := hs ++ [⟨name, value⟩]

/-- Adds a value for a name that has none. -/
def addMissing (hs : Headers) (name : String) (value : List UInt8) : Headers :=
  if (hs.first? name).isSome then hs else hs.add name value

end Headers

end ServiceMesh.Http
