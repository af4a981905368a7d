/-!
# UTF-8 faults

Where and why a sequence of bytes stops being UTF-8. A lead byte fixes how many bytes follow it
and, for four of the leads, a narrower range for the first of them, which rules out overlong
forms, surrogates and code points above U+10FFFF. A sequence can break in two ways: a byte that
cannot stand where it stands, or an end of input inside a character.
-/

namespace Switchboard.Text

/-- Byte arrays are told apart by their own comparison, whatever others are in scope. -/
instance (priority := 2000) bytesDecidableEq : DecidableEq ByteArray := ByteArray.instDecidableEq

/-- Why a byte sequence is not UTF-8, with the index of the first byte of the broken character:
    some bytes from there on begin no character, or the input ends inside the character. -/
inductive Utf8Fault where
  | invalid (index length : Nat)
  | incomplete (index : Nat)
deriving DecidableEq, Repr

/-- What the fault is called in a message. -/
def Utf8Fault.message : Utf8Fault → String
  | .invalid index length =>
    "invalid utf-8 sequence of " ++ toString length ++ " bytes from index " ++ toString index
  | .incomplete index => "incomplete utf-8 byte sequence from index " ++ toString index

/-- The bytes that a lead byte still asks for: the range of the first of them and how many come
    after that one. An ASCII byte asks for none and is not listed. -/
def continuation? (lead : UInt8) : Option (UInt8 × UInt8 × Nat) :=
  if 0xC2 ≤ lead ∧ lead ≤ 0xDF then some (0x80, 0xBF, 0)
  else if lead = 0xE0 then some (0xA0, 0xBF, 1)
  else if lead = 0xED then some (0x80, 0x9F, 1)
  else if 0xE1 ≤ lead ∧ lead ≤ 0xEF then some (0x80, 0xBF, 1)
  else if lead = 0xF0 then some (0x90, 0xBF, 2)
  else if 0xF1 ≤ lead ∧ lead ≤ 0xF3 then some (0x80, 0xBF, 2)
  else if lead = 0xF4 then some (0x80, 0x8F, 2)
  else none

/-- What the scan still expects of the character that it is in, if it is in one: the character that
    began at `start`, of which `seen` bytes have been read, goes on with a byte from `lo` to `hi`
    and then `more` further ones. -/
inductive Utf8Scan where
  | between
  | inside (start seen : Nat) (lo hi : UInt8) (more : Nat)

/-- The first fault in the bytes from index `i` on. -/
def utf8FaultFrom? (i : Nat) : Utf8Scan → List UInt8 → Option Utf8Fault
  | .between, [] => none
  | .inside start _ _ _ _, [] => some (.incomplete start)
  | .between, b :: rest =>
    if b < 0x80 then utf8FaultFrom? (i + 1) .between rest
    else match continuation? b with
      | none => some (.invalid i 1)
      | some (lo, hi, more) => utf8FaultFrom? (i + 1) (.inside i 1 lo hi more) rest
  | .inside start seen lo hi more, b :: rest =>
    if lo ≤ b ∧ b ≤ hi then
      match more with
      | 0 => utf8FaultFrom? (i + 1) .between rest
      | more + 1 => utf8FaultFrom? (i + 1) (.inside start (seen + 1) 0x80 0xBF more) rest
    else some (.invalid start seen)

-- A lone continuation byte is invalid where it stands.
example : utf8FaultFrom? 0 .between [0x61, 0x80] = some (.invalid 1 1) := by decide

/-- The first place where the bytes are not UTF-8, if there is one. -/
def utf8Fault? (bytes : ByteArray) : Option Utf8Fault :=
  utf8FaultFrom? 0 .between bytes.toList

end Switchboard.Text
