/-!
# Binary64 values

A 64-bit floating point value as data: a sign, and the exponent and fraction fields read as one
natural number, so that the magnitudes of positive values are ordered as the values are. All
arithmetic is exact on natural numbers, followed by one rounding to the nearest value with ties
to the even significand. Rounding starts from a ratio of natural numbers (`ofRatio?`); decimals,
integers and sums are special cases of it.
-/

namespace Switchboard

/-- A binary64 value: its sign bit, and its eleven exponent bits and fifty-two fraction bits read
    as one number. -/
structure Binary64 where
  negative : Bool
  magnitude : Nat
deriving DecidableEq, Repr

/-- The natural number nearest to `num / den`; of two equally near ones the even one. -/
def roundHalfEven (num den : Nat) : Nat :=
  let q := num / den
  match compare (2 * (num % den)) den with
  | .lt => q
  | .gt => q + 1
  | .eq => if q % 2 = 0 then q else q + 1

namespace Binary64

/-- The leading bit of a significand, the fifty-second power of two, which is not stored. -/
def leadingBit : Nat := 0x10000000000000

/-- The magnitude of infinity, the least that is not finite. -/
def infinityMagnitude : Nat := 0x7FF * leadingBit

/-- Whether the value is neither an infinity nor a NaN. -/
def isFinite (x : Binary64) : Bool := x.magnitude < infinityMagnitude

/-- Zero with the given sign. -/
def zero (negative : Bool) : Binary64 := ⟨negative, 0⟩

/-- The value two. -/
def two : Binary64 := ⟨false, 0x4000000000000000⟩

/-- A value that is no number. -/
def nan : Binary64 := ⟨false, 0x7FF8000000000000⟩

/-- The significand of a finite value as an integer, with the leading bit that is not stored. -/
def significand (x : Binary64) : Nat :=
  if x.magnitude / leadingBit = 0 then x.magnitude % leadingBit else leadingBit + x.magnitude % leadingBit

/-- The power of two that the significand of a finite value is multiplied by. -/
def exponent (x : Binary64) : Int :=
  (max (x.magnitude / leadingBit) 1 : Nat) - 1075

/-- The exponent that gives `num / den` a significand of fifty-three bits, but never less than
    that of the subnormal values. -/
def fittingExponent (num den : Nat) : Int :=
  let q : Int := (num.log2 : Int) - den.log2 - 52
  let q := if num * Nat.pow 2 (-q).toNat < den * Nat.pow 2 q.toNat * leadingBit then q - 1 else q
  max q (-1074)

/-- The value nearest to `num / den` with the given sign, ties to the even significand, or
    `none` if that lies beyond the finite values. -/
def ofRatio? (negative : Bool) (num den : Nat) : Option Binary64 :=
  if num = 0 then some (zero negative)
  else
    let q := fittingExponent num den
    let m := roundHalfEven (num * Nat.pow 2 (-q).toNat) (den * Nat.pow 2 q.toNat)
    let magnitude := (q + 1074).toNat * leadingBit + m
    if magnitude < infinityMagnitude then some ⟨negative, magnitude⟩ else none

/-- The value nearest to `digits * 10 ^ exponent`, or `none` if that lies beyond the finite
    values. An exponent so far out that it settles the answer is not raised to a power. -/
def ofDecimal? (negative : Bool) (digits : Nat) (exponent : Int) : Option Binary64 :=
  if digits = 0 then some (zero negative)
  else if 400 < exponent then none
  else if exponent + digits.log2 + 1 < -400 then some (zero negative)
  else ofRatio? negative (digits * Nat.pow 10 exponent.toNat) (Nat.pow 10 (-exponent).toNat)

/-- The value nearest to an integer, or `none` beyond the finite values. -/
def ofInt? (n : Int) : Option Binary64 := ofRatio? (n < 0) n.natAbs 1

/-- A finite value as a multiple of the least positive one, `2 ^ -1074`. -/
def scaled (x : Binary64) : Int :=
  let m : Nat := x.significand * Nat.pow 2 (x.exponent + 1074).toNat
  if x.negative then -m else m

/-- The sum of two finite values, or `none` beyond the finite values. -/
def add? (x y : Binary64) : Option Binary64 :=
  let s := x.scaled + y.scaled
  ofRatio? (s < 0 || (x.negative && y.negative)) s.natAbs (Nat.pow 2 1074)

/-- The numeric order of two finite values: is `x` at most `y`? -/
def le (x y : Binary64) : Bool := x.scaled ≤ y.scaled

end Binary64

end Switchboard
