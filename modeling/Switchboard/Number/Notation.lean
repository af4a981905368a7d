import Switchboard.Number.Shortest

/-!
# How numbers are written

Integers are written in decimal. A finite binary64 value is written with the fewest digits that
read back. Where the exponent of its leading digit is at least −5 and at most 15 the digits are
laid out around a decimal point, which is always there; otherwise one digit stands before the
point and a signed exponent follows, and then the point is left out after a single digit.
-/

namespace Switchboard

/-- The decimal digits of a natural number. -/
def natDigits (n : Nat) : List Char := Nat.toDigits 10 n

/-- An integer in decimal, with a minus sign if it is negative. -/
def intDigits (n : Int) : List Char :=
  if n < 0 then '-' :: natDigits n.natAbs else natDigits n.natAbs

/-- Digits around a decimal point, with `e` the exponent of the first digit. -/
def positional (ds : List Char) (e : Int) : List Char :=
  if e < 0 then
    '0' :: '.' :: List.replicate ((-e).toNat - 1) '0' ++ ds
  else if e.toNat + 1 < ds.length then
    ds.take (e.toNat + 1) ++ '.' :: ds.drop (e.toNat + 1)
  else
    ds ++ List.replicate (e.toNat + 1 - ds.length) '0' ++ ['.', '0']

/-- Digits with the point after the first of them and the exponent `e` of it behind. -/
def scientific (ds : List Char) (e : Int) : List Char :=
  ds.take 1 ++ (if ds.length ≤ 1 then [] else '.' :: ds.drop 1)
    ++ 'e' :: (if e < 0 then '-' else '+') :: natDigits e.natAbs

namespace Binary64

/-- Exponents of the leading digit for which a value is written around its decimal point. -/
def isPositional (e : Int) : Bool := -5 ≤ e && e ≤ 15

/-- How a finite value is written. Zeros that the digits end in are not significant and go. -/
def chars (x : Binary64) : List Char :=
  let sign := if x.negative then ['-'] else []
  if x.magnitude = 0 then sign ++ ['0', '.', '0']
  else
    let d := x.shortest
    let ds := natDigits d.digits
    let e := d.exponent + ds.length - 1
    let ds := (ds.reverse.dropWhile (· = '0')).reverse
    sign ++ if isPositional e then positional ds e else scientific ds e

-- The largest exponent written positionally, and the first beyond it.
example : (Binary64.mk false 0x430C6BF526340000).chars = "1000000000000000.0".toList ∧
    (Binary64.mk false 0x4341C37937E08000).chars = "1e+16".toList := by
  decide +kernel

end Binary64

end Switchboard
