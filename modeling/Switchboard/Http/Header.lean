import Switchboard.Text.Utf8

/-!
# Headers of a handshake

A connection begins with a handshake request, which carries headers. A header has a name, in which
the case of letters does not matter, and a value made of bytes. A value may hold any byte that is
no control character, and the tab, but it can be read as text only if all of its bytes are visible
ASCII characters, spaces and tabs. Several headers may have one name; the first of them counts.
-/

namespace Switchboard

/-- A header of a handshake request: its name in lower case and the bytes of its value. -/
structure Header where
  name : String
  value : List UInt8
deriving DecidableEq, Repr

/-- The headers of a handshake request in the order in which they were sent. -/
abbrev Headers := List Header

namespace Header

/-- Whether a character can be part of the name of a header. -/
def isNameChar (c : Char) : Bool := c.isAlphanum || "!#$%&'*+-.^_\x60|~".toList.contains c

/-- Whether a text can be the name of a header. -/
def isName (s : String) : Bool :=
  !s.isEmpty && s.length < 0x10000 && s.toList.all isNameChar

/-- Whether a byte can be part of a value: it is the tab or no control character. -/
def isValueByte (b : UInt8) : Bool := b = 0x09 || (0x20 ≤ b && b ≠ 0x7F)

/-- Whether a byte of a value can be read as a character: it is visible in ASCII, a space or a
    tab. -/
def isTextByte (b : UInt8) : Bool := b = 0x09 || (0x20 ≤ b && b < 0x7F)

/-- The bytes of a text as a value, if they can be one. -/
def value? (s : String) : Option (List UInt8) :=
  let bytes := s.toUTF8.toList
  if bytes.all isValueByte then some bytes else none

/-- The header with a name and the text of a value, if there can be one. -/
def make? (name value : String) : Option Header :=
  if isName name then (value? value).map fun v => ⟨name.map Char.toLower, v⟩ else none

/-- The characters of a value, if it can be read as text. -/
def text? (h : Header) : Option (List Char) :=
  if h.value.all isTextByte then some (h.value.map fun b => Char.ofNat b.toNat) else none

end Header

namespace Headers

/-- The first header of a name, given in any case. -/
def find? (headers : Headers) (name : String) : Option Header :=
  List.find? (fun h => h.name = name.map Char.toLower) headers

/-- Whether there is a header of a name, given in any case. -/
def contains (headers : Headers) (name : String) : Bool := (headers.find? name).isSome

end Headers

end Switchboard
