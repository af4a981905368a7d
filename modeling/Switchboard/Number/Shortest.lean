import Switchboard.Number.Binary64

/-!
# The shortest decimal that reads back

A finite binary64 value stands for the interval of reals that round to it. Among the decimals in
that interval the ones with the fewest digits are sought, and of those the one nearest to the
value; if two are equally near, the one whose last digit is even.

The search is the specification turned into a loop. For one digit, two digits and so on, the two
neighbours of the value on that decimal grid are tested against the interval (`readsBack`), and
the first grid with a hit decides. All comparisons are between natural numbers.
-/

namespace Switchboard

/-- The decimal `digits * 10 ^ exponent`. -/
structure Decimal where
  digits : Nat
  exponent : Int
deriving DecidableEq, Repr

/-- The order of `a * 10 ^ i` and `n * 2 ^ j`. -/
def compareScaled (a : Nat) (i : Int) (n : Nat) (j : Int) : Ordering :=
  compare (a * Nat.pow 10 i.toNat * Nat.pow 2 (-j).toNat)
    (n * Nat.pow 2 j.toNat * Nat.pow 10 (-i).toNat)

namespace Binary64

/-- Whether the value below is nearer than the value above: so it is at a power of two. -/
def narrowBelow (x : Binary64) : Bool :=
  x.magnitude % leadingBit = 0 && 1 < x.magnitude / leadingBit

/-- Whether a decimal lies among the reals that round to the value: between the midpoints to
    its two neighbours, the midpoints themselves included when the significand is even. -/
def readsBack (x : Binary64) (d : Decimal) : Bool :=
  let m := x.significand
  let lo := if x.narrowBelow then 4 * m - 1 else 4 * m - 2
  let hi := 4 * m + 2
  let even := m % 2 = 0
  let atLo := compareScaled d.digits d.exponent lo (x.exponent - 2)
  let atHi := compareScaled d.digits d.exponent hi (x.exponent - 2)
  (atLo = .gt ∨ even ∧ atLo = .eq) ∧ (atHi = .lt ∨ even ∧ atHi = .eq)

/-- The better of the value's two neighbours among the multiples of `10 ^ g`, if one of them
    reads back. -/
def onGrid? (x : Binary64) (g : Int) : Option Decimal :=
  let num := x.significand * Nat.pow 2 x.exponent.toNat * Nat.pow 10 (-g).toNat
  let den := Nat.pow 2 (-x.exponent).toNat * Nat.pow 10 g.toNat
  let below : Decimal := ⟨num / den, g⟩
  let above : Decimal := ⟨num / den + 1, g⟩
  match x.readsBack below, x.readsBack above with
  | true, true => some ⟨roundHalfEven num den, g⟩
  | true, false => some below
  | false, true => some above
  | false, false => none

/-- The number of digits before the decimal point, zero or less for values below one: the least
    `k` such that the value lies below `10 ^ k`. -/
def decimalScale (x : Binary64) : Int :=
  let k := ((x.significand.log2 : Int) + x.exponent) * 30103 / 100000 - 1
  let fits := fun i : Nat => compareScaled 1 (k + i) x.significand x.exponent = .gt
  k + ((List.range 4).find? fits).getD 4

/-- The value itself, written out. -/
def exactDecimal (x : Binary64) : Decimal :=
  if 0 ≤ x.exponent then ⟨x.significand * Nat.pow 2 x.exponent.toNat, 0⟩
  else ⟨x.significand * Nat.pow 5 (-x.exponent).toNat, x.exponent⟩

/-- The shortest decimal that reads back to a finite nonzero value, its sign apart. Seventeen
    digits always suffice; the exact value stands behind them so that the answer never guesses. -/
def shortest (x : Binary64) : Decimal :=
  let k := x.decimalScale
  ((List.range 17).findSome? fun n : Nat => x.onGrid? (k - n - 1)).getD x.exactDecimal

-- Two to the minus twenty-fifth lies halfway between two decimals of seventeen digits, and the
-- even one is taken.
example : (Binary64.mk false 0x3E60000000000000).shortest = ⟨29802322387695312, -24⟩ := by
  decide +kernel

end Binary64

end Switchboard
