import Switchboard.Text.Hidden

/-!
# Quoted text for messages

The form in which a text is shown inside a message or a diagnostic line: between double quotes,
with a backslash in front of a quote or a backslash, the letters `n`, `r`, `t` and `0` for line
feed, carriage return, tab and the null character, and the code point in hexadecimal for a
character that would not show. Everything else stands for itself.
-/

namespace Switchboard.Text

/-- A natural number in lower-case hexadecimal. -/
def hexDigits (n : Nat) : List Char := Nat.toDigits 16 n

/-- How one character is written between the quotes. -/
def quotedChar (c : Char) : List Char :=
  if c = '"' ∨ c = '\\' then ['\\', c]
  else if c = '\n' then ['\\', 'n']
  else if c = '\r' then ['\\', 'r']
  else if c = '\t' then ['\\', 't']
  else if c.toNat = 0 then ['\\', '0']
  else if isHidden c then
    ['\\', 'u', '\x7b'] ++ hexDigits c.toNat ++ ['\x7d']
  else [c]

/-- A text between double quotes, as messages show it. -/
def quoted (s : String) : String :=
  String.ofList ('"' :: s.toList.flatMap quotedChar ++ ['"'])

/-- A list of texts between brackets, each quoted, with commas between them. -/
def quotedList (l : List String) : String :=
  "[" ++ ", ".intercalate (l.map quoted) ++ "]"

end Switchboard.Text
