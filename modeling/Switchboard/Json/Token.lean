import Switchboard.Json.Basic
import Switchboard.Number.Notation

/-!
# JSON tokens

A JSON text is a sequence of tokens with blanks between them; the blanks are space, tab, line
feed and carriage return. `Token.chars` writes a token and `lex` splits a text into tokens.

* A string is written between quotes. A quote and a backslash get a backslash in front of them,
  five control characters a letter, the other control characters four hexadecimal digits, and
  everything else stands for itself. Every escape of the standard is read; code units of a
  surrogate pair must come as a pair.
* A number without fraction and exponent is an integer as long as it is within the range of
  integers. Every other number is rounded to binary64; `-0` is a binary64 value too. A number
  beyond the finite values is refused.
-/

namespace Switchboard

/-- A lexical unit of a JSON text. -/
inductive Token where
  | openArray
  | closeArray
  | openObject
  | closeObject
  | comma
  | colon
  | null
  | bool (b : Bool)
  | num (n : Number)
  | str (s : String)
deriving DecidableEq, Repr

/-! ## Writing -/

/-- A hexadecimal digit, in lower case. -/
def hexDigit (n : Nat) : Char := Nat.digitChar n

/-- How a character is written inside a JSON string. -/
def escapedChar (c : Char) : List Char :=
  if c = '"' ∨ c = '\\' then ['\\', c]
  else if c = '\n' then ['\\', 'n']
  else if c = '\r' then ['\\', 'r']
  else if c = '\t' then ['\\', 't']
  else if c.toNat = 8 then ['\\', 'b']
  else if c.toNat = 12 then ['\\', 'f']
  else if c.toNat < 32 then
    ['\\', 'u', '0', '0', hexDigit (c.toNat / 16), hexDigit (c.toNat % 16)]
  else [c]

/-- How a number is written. -/
def Number.chars : Number → List Char
  | .int n => intDigits n
  | .float x => x.chars

/-- How a token is written. -/
def Token.chars : Token → List Char
  | .openArray => ['[']
  | .closeArray => [']']
  | .openObject => ['\x7b']
  | .closeObject => ['\x7d']
  | .comma => [',']
  | .colon => [':']
  | .null => ['n', 'u', 'l', 'l']
  | .bool true => ['t', 'r', 'u', 'e']
  | .bool false => ['f', 'a', 'l', 's', 'e']
  | .num n => n.chars
  | .str s => '"' :: s.toList.flatMap escapedChar ++ ['"']

/-! ## Reading -/

/-- The value of a hexadecimal digit in either case. -/
def hexValue? (c : Char) : Option Nat :=
  if '0' ≤ c ∧ c ≤ '9' then some (c.toNat - '0'.toNat)
  else if 'a' ≤ c ∧ c ≤ 'f' then some (c.toNat - 'a'.toNat + 10)
  else if 'A' ≤ c ∧ c ≤ 'F' then some (c.toNat - 'A'.toNat + 10)
  else none

/-- Four hexadecimal digits and what follows them. -/
def hexUnit? : List Char → Option (Nat × List Char)
  | a :: b :: c :: d :: rest => do
    let a ← hexValue? a
    let b ← hexValue? b
    let c ← hexValue? c
    let d ← hexValue? d
    some (((a * 16 + b) * 16 + c) * 16 + d, rest)
  | _ => none

/-- The character written by the hexadecimal digits of one code unit, or of a surrogate pair. -/
def hexEscape? (cs : List Char) : Option (Char × List Char) :=
  match hexUnit? cs with
  | none => none
  | some (n, rest) =>
    if 0xD800 ≤ n ∧ n < 0xDC00 then
      match rest with
      | '\\' :: 'u' :: rest =>
        match hexUnit? rest with
        | none => none
        | some (m, rest) =>
          if 0xDC00 ≤ m ∧ m < 0xE000 then
            some (Char.ofNat (0x10000 + (n - 0xD800) * 0x400 + (m - 0xDC00)), rest)
          else none
      | _ => none
    else if 0xDC00 ≤ n ∧ n < 0xE000 then none
    else some (Char.ofNat n, rest)

/-- The character that an escape stands for, read from behind its backslash. -/
def escape? : List Char → Option (Char × List Char)
  | '"' :: rest => some ('"', rest)
  | '\\' :: rest => some ('\\', rest)
  | '/' :: rest => some ('/', rest)
  | 'b' :: rest => some (Char.ofNat 8, rest)
  | 'f' :: rest => some (Char.ofNat 12, rest)
  | 'n' :: rest => some ('\n', rest)
  | 'r' :: rest => some ('\r', rest)
  | 't' :: rest => some ('\t', rest)
  | 'u' :: rest => hexEscape? rest
  | _ => none

theorem length_of_hexUnit? {cs rest : List Char} {n : Nat} (h : hexUnit? cs = some (n, rest)) :
    rest.length < cs.length := by
  unfold hexUnit? at h
  split at h
  · simp only [Option.bind_eq_bind, Option.bind_eq_some_iff, Option.some.injEq, Prod.mk.injEq] at h
    obtain ⟨_, _, _, _, _, _, _, _, _, rfl⟩ := h
    simp only [List.length_cons]; omega
  · contradiction

theorem length_of_hexEscape? {cs rest : List Char} {c : Char}
    (h : hexEscape? cs = some (c, rest)) : rest.length < cs.length := by
  unfold hexEscape? at h
  split at h
  · contradiction
  · rename_i n r hn
    have h₁ := length_of_hexUnit? hn
    split at h
    · split at h
      · split at h
        · contradiction
        · rename_i m r' hm
          have h₂ := length_of_hexUnit? hm
          simp only [List.length_cons] at h₁
          split at h
          · simp only [Option.some.injEq, Prod.mk.injEq] at h
            obtain ⟨_, rfl⟩ := h
            omega
          · contradiction
      · contradiction
    · split at h
      · contradiction
      · simp only [Option.some.injEq, Prod.mk.injEq] at h
        obtain ⟨_, rfl⟩ := h
        exact h₁

/-- An escape takes at least one character off the text. -/
theorem length_of_escape? {cs rest : List Char} {c : Char} (h : escape? cs = some (c, rest)) :
    rest.length < cs.length := by
  unfold escape? at h
  split at h
  case h_9 => have := length_of_hexEscape? h; simp only [List.length_cons]; omega
  case h_10 => contradiction
  all_goals
    simp only [Option.some.injEq, Prod.mk.injEq] at h
    obtain ⟨_, rfl⟩ := h
    simp

/-- The characters of a string up to its closing quote, behind the ones already read, which
    stand in `read` in reverse; and what follows the quote. -/
def stringBody? (read : List Char) : List Char → Option (List Char × List Char)
  | [] => none
  | '"' :: rest => some (read.reverse, rest)
  | '\\' :: rest =>
    match _h : escape? rest with
    | none => none
    | some (c, rest) => stringBody? (c :: read) rest
  | c :: rest => if c.toNat < 32 then none else stringBody? (c :: read) rest
termination_by cs => cs.length
decreasing_by
  · have := length_of_escape? _h; simp only [List.length_cons]; omega
  · simp only [List.length_cons]; omega

/-- A closed string ends before the text does. -/
theorem length_of_stringBody? {read cs s rest : List Char}
    (h : stringBody? read cs = some (s, rest)) : rest.length < cs.length := by
  fun_induction stringBody? read cs with
  | case1 => contradiction
  | case2 read r =>
    simp only [Option.some.injEq, Prod.mk.injEq] at h
    obtain ⟨_, rfl⟩ := h
    simp
  | case3 => contradiction
  | case4 read r c r' he ih =>
    have h₁ := length_of_escape? he
    have h₂ := ih h
    simp only [List.length_cons]; omega
  | case5 => contradiction
  | case6 read c r _ _ _ ih =>
    have := ih h
    simp only [List.length_cons]; omega

/-- The value of a sequence of decimal digits. -/
def digitsValue (ds : List Char) : Nat := ds.foldl (fun n d => 10 * n + (d.toNat - '0'.toNat)) 0

/-- The number written by these parts of a numeral, `none` if it is beyond the finite values. -/
def Number.ofParts? (negative : Bool) (whole fraction : List Char) (exponent : Option Int) :
    Option Number :=
  let n := digitsValue (whole ++ fraction)
  let float := (Binary64.ofDecimal? negative n (exponent.getD 0 - fraction.length)).map .float
  if fraction = [] ∧ exponent = none ∧ ¬(negative ∧ n = 0) then
    let i : Int := if negative then -n else n
    if isExact i then some (.int i) else float
  else float

/-- The digits in front of a text, of which there must be at least one, and what follows. -/
def digits? (cs : List Char) : Option (List Char × List Char) :=
  match cs.takeWhile Char.isDigit with
  | [] => none
  | ds => some (ds, cs.dropWhile Char.isDigit)

/-- The whole part of a numeral: a lone zero, or digits that do not begin with one. -/
def whole? : List Char → Option (List Char × List Char)
  | '0' :: rest => some (['0'], rest)
  | cs => digits? cs

/-- The digits behind a decimal point, if there is a point. -/
def fraction? : List Char → Option (List Char × List Char)
  | '.' :: rest => digits? rest
  | cs => some ([], cs)

/-- The digits of an exponent as an integer of the given sign. -/
def exponentDigits? (negative : Bool) (cs : List Char) : Option (Option Int × List Char) :=
  (digits? cs).map fun (ds, rest) =>
    (some (if negative then -(digitsValue ds : Int) else digitsValue ds), rest)

/-- The exponent behind its mark, with or without a sign, if there is a mark. -/
def exponent? : List Char → Option (Option Int × List Char)
  | c :: rest =>
    if c = 'e' ∨ c = 'E' then
      match rest with
      | '-' :: rest => exponentDigits? true rest
      | '+' :: rest => exponentDigits? false rest
      | rest => exponentDigits? false rest
    else some (none, c :: rest)
  | [] => some (none, [])

/-- The number at the front of a text whose sign has been read. -/
def unsigned? (negative : Bool) (cs : List Char) : Option (Number × List Char) := do
  let (whole, cs) ← whole? cs
  let (fraction, cs) ← fraction? cs
  let (exponent, cs) ← exponent? cs
  let n ← Number.ofParts? negative whole fraction exponent
  some (n, cs)

/-- The number at the front of a text. -/
def numeral? : List Char → Option (Number × List Char)
  | '-' :: rest => unsigned? true rest
  | cs => unsigned? false cs

theorem length_of_digits? {cs ds rest : List Char} (h : digits? cs = some (ds, rest)) :
    rest.length < cs.length := by
  unfold digits? at h
  split at h
  · contradiction
  · rename_i ds' hne
    simp only [Option.some.injEq, Prod.mk.injEq] at h
    obtain ⟨_, rfl⟩ := h
    have hlen : (cs.takeWhile Char.isDigit ++ cs.dropWhile Char.isDigit).length = cs.length := by
      rw [List.takeWhile_append_dropWhile]
    have hpos : 0 < (cs.takeWhile Char.isDigit).length := List.length_pos_iff.2 hne
    simp only [List.length_append] at hlen
    omega

theorem length_of_whole? {cs ds rest : List Char} (h : whole? cs = some (ds, rest)) :
    rest.length < cs.length := by
  unfold whole? at h
  split at h
  · simp only [Option.some.injEq, Prod.mk.injEq] at h
    obtain ⟨_, rfl⟩ := h
    simp
  · exact length_of_digits? h

theorem length_of_fraction? {cs ds rest : List Char} (h : fraction? cs = some (ds, rest)) :
    rest.length ≤ cs.length := by
  unfold fraction? at h
  split at h
  · have := length_of_digits? h; simp only [List.length_cons]; omega
  · simp only [Option.some.injEq, Prod.mk.injEq] at h
    obtain ⟨_, rfl⟩ := h
    simp

theorem length_of_exponentDigits? {negative : Bool} {cs rest : List Char} {e : Option Int}
    (h : exponentDigits? negative cs = some (e, rest)) : rest.length < cs.length := by
  simp only [exponentDigits?, Option.map_eq_some_iff, Prod.mk.injEq] at h
  obtain ⟨⟨ds, r⟩, hd, _, rfl⟩ := h
  exact length_of_digits? hd

theorem length_of_exponent? {cs rest : List Char} {e : Option Int}
    (h : exponent? cs = some (e, rest)) : rest.length ≤ cs.length := by
  unfold exponent? at h
  split at h
  · split at h
    · split at h
      all_goals
        have := length_of_exponentDigits? h
        simp only [List.length_cons] at this ⊢
        omega
    · simp only [Option.some.injEq, Prod.mk.injEq] at h
      obtain ⟨_, rfl⟩ := h
      simp
  · simp only [Option.some.injEq, Prod.mk.injEq] at h
    obtain ⟨_, rfl⟩ := h
    simp

theorem length_of_unsigned? {negative : Bool} {cs rest : List Char} {n : Number}
    (h : unsigned? negative cs = some (n, rest)) : rest.length < cs.length := by
  simp only [unsigned?, Option.bind_eq_bind, Option.bind_eq_some_iff, Prod.exists] at h
  obtain ⟨w, r₁, h₁, f, r₂, h₂, e, r₃, h₃, m, _, h₄⟩ := h
  simp only [Option.some.injEq, Prod.mk.injEq] at h₄
  obtain ⟨_, rfl⟩ := h₄
  have := length_of_whole? h₁
  have := length_of_fraction? h₂
  have := length_of_exponent? h₃
  omega

/-- A numeral takes at least one character off the text. -/
theorem length_of_numeral? {cs rest : List Char} {n : Number} (h : numeral? cs = some (n, rest)) :
    rest.length < cs.length := by
  unfold numeral? at h
  split at h
  · have := length_of_unsigned? h; simp only [List.length_cons]; omega
  · exact length_of_unsigned? h

/-- The token at the front of a text that does not begin with a blank, and what follows it. -/
def token? : List Char → Option (Token × List Char)
  | '[' :: rest => some (.openArray, rest)
  | ']' :: rest => some (.closeArray, rest)
  | '\x7b' :: rest => some (.openObject, rest)
  | '\x7d' :: rest => some (.closeObject, rest)
  | ',' :: rest => some (.comma, rest)
  | ':' :: rest => some (.colon, rest)
  | 'n' :: 'u' :: 'l' :: 'l' :: rest => some (.null, rest)
  | 't' :: 'r' :: 'u' :: 'e' :: rest => some (.bool true, rest)
  | 'f' :: 'a' :: 'l' :: 's' :: 'e' :: rest => some (.bool false, rest)
  | '"' :: rest => (stringBody? [] rest).map fun (s, rest) => (.str (String.ofList s), rest)
  | cs => (numeral? cs).map fun (n, rest) => (.num n, rest)

/-- A token takes at least one character off the text. -/
theorem length_of_token? {cs rest : List Char} {t : Token} (h : token? cs = some (t, rest)) :
    rest.length < cs.length := by
  unfold token? at h
  split at h
  case h_10 =>
    simp only [Option.map_eq_some_iff, Prod.mk.injEq] at h
    obtain ⟨⟨s, r⟩, hs, _, rfl⟩ := h
    have := length_of_stringBody? hs
    simp only [List.length_cons]; omega
  case h_11 =>
    simp only [Option.map_eq_some_iff, Prod.mk.injEq] at h
    obtain ⟨⟨n, r⟩, hn, _, rfl⟩ := h
    exact length_of_numeral? hn
  all_goals
    simp only [Option.some.injEq, Prod.mk.injEq] at h
    obtain ⟨_, rfl⟩ := h
    simp only [List.length_cons]; omega

/-- Whether a character may stand between tokens. -/
def isJsonBlank (c : Char) : Bool := c = ' ' || c = '\t' || c = '\n' || c = '\r'

/-- The tokens of a text behind the ones already read, which stand in `read` in reverse. -/
def lexFrom (read : List Token) (cs : List Char) : Option (List Token) :=
  match cs with
  | [] => some read.reverse
  | c :: rest =>
    if isJsonBlank c then lexFrom read rest
    else
      match _h : token? (c :: rest) with
      | none => none
      | some (t, rest) => lexFrom (t :: read) rest
termination_by cs.length
decreasing_by
  · simp only [List.length_cons]; omega
  · exact length_of_token? _h

/-- The tokens of a text, or `none` if it is no sequence of tokens. -/
def lex (cs : List Char) : Option (List Token) := lexFrom [] cs

end Switchboard
