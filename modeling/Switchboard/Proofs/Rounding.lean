import Mathlib
import Switchboard.Number.Shortest

/-!
# Decimals that read back

A finite binary64 value other than zero stands for the interval of rational numbers that round
to it (`Rounds`). Two things are shown about it. Rounding is right: a ratio in the interval of a
value is read as that value (`ofRatio?_eq`), and so is a decimal (`ofDecimal?_eq`). Printing is
right: the decimal that is chosen for a value lies in its interval (`shortest_rounds`).

Rational numbers are used in proofs alone. The definitions compare and divide natural numbers,
and `ratio_scaled` and `compareScaled_iff` say which rational numbers those stand for.
-/

namespace Switchboard

/-! ## Powers -/

/-- A power with an integer for an exponent is a ratio of two powers, one of which is one. -/
theorem zpow_eq_div (b : ℚ) (i : ℤ) : b ^ i = b ^ i.toNat / b ^ (-i).toNat := by
  obtain ⟨n, rfl | rfl⟩ := i.eq_nat_or_neg
  · simp
  · simp

/-- A ratio brought to a unit of `2 ^ q` by shifting one of its two sides. -/
theorem ratio_scaled (num den : ℕ) (q : ℤ) :
    ((num * 2 ^ (-q).toNat : ℕ) : ℚ) / ((den * 2 ^ q.toNat : ℕ) : ℚ) = num / den / 2 ^ q := by
  rw [zpow_eq_div]
  push_cast
  field_simp

/-- Scaled numbers are compared as the rational numbers that they stand for. -/
theorem compareScaled_iff (a : ℕ) (i : ℤ) (n : ℕ) (j : ℤ) :
    (compareScaled a i n j = .lt ↔ (a : ℚ) * 10 ^ i < n * 2 ^ j) ∧
      (compareScaled a i n j = .eq ↔ (a : ℚ) * 10 ^ i = n * 2 ^ j) ∧
      (compareScaled a i n j = .gt ↔ (n : ℚ) * 2 ^ j < a * 10 ^ i) := by
  have hc : (0 : ℚ) < 10 ^ (-i).toNat * 2 ^ (-j).toNat := by positivity
  have ha : ((a * 10 ^ i.toNat * 2 ^ (-j).toNat : ℕ) : ℚ)
      = a * 10 ^ i * (10 ^ (-i).toNat * 2 ^ (-j).toNat) := by
    rw [zpow_eq_div 10 i]
    push_cast
    field_simp
  have hn : ((n * 2 ^ j.toNat * 10 ^ (-i).toNat : ℕ) : ℚ)
      = n * 2 ^ j * (10 ^ (-i).toNat * 2 ^ (-j).toNat) := by
    rw [zpow_eq_div 2 j]
    push_cast
    field_simp
  unfold compareScaled
  simp only [Nat.pow_eq]
  have hlt (m n : ℕ) : m < n ↔ (m : ℚ) < n := Nat.cast_lt.symm
  rw [Nat.compare_eq_lt, Nat.compare_eq_eq, Nat.compare_eq_gt, hlt, hlt,
    ← Nat.cast_inj (R := ℚ), ha, hn]
  exact ⟨mul_lt_mul_iff_left₀ hc, mul_left_inj' hc.ne', mul_lt_mul_iff_left₀ hc⟩

/-! ## Rounding to a natural number -/

/-- A ratio that lies between the midpoints below and above a natural number rounds to it, and so
    does a midpoint if the number is even. -/
theorem roundHalfEven_eq {num den n : ℕ} (hden : 0 < den) (hlo : 2 * n * den ≤ 2 * num + den)
    (hhi : 2 * num ≤ (2 * n + 1) * den)
    (htie : 2 * n * den = 2 * num + den ∨ 2 * num = (2 * n + 1) * den → n % 2 = 0) :
    roundHalfEven num den = n := by
  have hdiv := Nat.div_add_mod num den
  have hmod := Nat.mod_lt num hden
  unfold roundHalfEven
  generalize num / den = q at *
  generalize num % den = s at *
  -- the remainder is less than a whole, so the number is the quotient or the next
  have hq : n = q ∨ n = q + 1 := by
    have hle : n < q + 2 := by
      by_contra hbig
      have hmul : (q + 2) * den ≤ n * den := Nat.mul_le_mul_right den (not_lt.mp hbig)
      nlinarith
    have hge : q < n + 1 := by
      by_contra hsmall
      have hmul : (n + 1) * den ≤ q * den := Nat.mul_le_mul_right den (not_lt.mp hsmall)
      nlinarith
    omega
  dsimp only
  rcases hq with rfl | rfl
  · -- the value lies at or above the number
    have hle : 2 * s ≤ den := by nlinarith
    rcases Nat.lt_or_eq_of_le hle with hlt | heq
    · rw [Nat.compare_eq_lt.mpr hlt]
    · rw [Nat.compare_eq_eq.mpr heq]
      exact if_pos (htie (Or.inr (by nlinarith)))
  · -- the value lies below the number
    have hle : den ≤ 2 * s := by nlinarith
    rcases Nat.lt_or_eq_of_le hle with hlt | heq
    · rw [Nat.compare_eq_gt.mpr hlt]
    · rw [Nat.compare_eq_eq.mpr heq.symm]
      have heven : (q + 1) % 2 = 0 := htie (Or.inl (by nlinarith))
      exact if_neg (by omega)

/-- Rounding a ratio, with the midpoints as rational numbers. -/
theorem roundHalfEven_of_near {num den n : ℕ} (hden : 0 < den)
    (hlo : (n : ℚ) - 1 / 2 ≤ num / den) (hhi : (num / den : ℚ) ≤ n + 1 / 2)
    (htie : (num / den : ℚ) = n - 1 / 2 ∨ (num / den : ℚ) = n + 1 / 2 → n % 2 = 0) :
    roundHalfEven num den = n := by
  have hden' : (0 : ℚ) < den := by exact_mod_cast hden
  rw [le_div_iff₀ hden'] at hlo
  rw [div_le_iff₀ hden'] at hhi
  rw [div_eq_iff hden'.ne', div_eq_iff hden'.ne'] at htie
  refine roundHalfEven_eq hden ?_ ?_ ?_
  · have : (2 * n * den : ℚ) ≤ 2 * num + den := by linarith
    exact_mod_cast this
  · have : (2 * num : ℚ) ≤ (2 * n + 1) * den := by linarith
    exact_mod_cast this
  · rintro (h | h)
    · have : (2 * n * den : ℚ) = 2 * num + den := by exact_mod_cast h
      exact htie (Or.inl (by linarith))
    · have : (2 * num : ℚ) = (2 * n + 1) * den := by exact_mod_cast h
      exact htie (Or.inr (by linarith))

/-- Rounding gives the quotient or the next number. -/
theorem roundHalfEven_cases (num den : ℕ) :
    roundHalfEven num den = num / den ∨ roundHalfEven num den = num / den + 1 := by
  unfold roundHalfEven
  dsimp only
  split
  · exact Or.inl rfl
  · exact Or.inr rfl
  · split
    · exact Or.inl rfl
    · exact Or.inr rfl

namespace Binary64

/-! ## Significand and exponent -/

/-- No float has a finer last place than the smallest ones. -/
theorem exponent_ge (x : Binary64) : -1074 ≤ x.exponent := by
  unfold exponent
  omega

/-- The two fields of a value are its exponent and its significand. -/
theorem magnitude_eq (x : Binary64) :
    x.magnitude = (x.exponent + 1074).toNat * 2 ^ 52 + x.significand := by
  unfold exponent significand leadingBit
  split <;> omega

/-- A significand has 53 bits at most. -/
theorem significand_lt (x : Binary64) : x.significand < 2 ^ 53 := by
  unfold significand leadingBit
  split <;> omega

/-- Only the values with the least exponent lack the leading bit. -/
theorem significand_ge (x : Binary64) (h : -1074 < x.exponent) : 2 ^ 52 ≤ x.significand := by
  unfold exponent leadingBit at h
  unfold significand leadingBit
  split <;> omega

/-- The value below is nearer exactly at the powers of two that are not the smallest. -/
theorem narrowBelow_iff (x : Binary64) :
    x.narrowBelow = true ↔ x.significand = 2 ^ 52 ∧ -1074 < x.exponent := by
  unfold narrowBelow exponent significand leadingBit
  rw [Bool.and_eq_true, decide_eq_true_iff, decide_eq_true_iff]
  split <;> omega

theorem significand_pos (x : Binary64) (h : x.magnitude ≠ 0) : 0 < x.significand := by
  by_cases hleast : -1074 < x.exponent
  · have := x.significand_ge hleast
    omega
  · have := x.magnitude_eq
    omega

/-- No finite float has a coarser last place than the largest ones. -/
theorem exponent_le (x : Binary64) (h : x.isFinite = true) : x.exponent ≤ 971 := by
  unfold isFinite infinityMagnitude leadingBit at h
  unfold exponent leadingBit
  rw [decide_eq_true_iff] at h
  omega

/-! ## The numbers that round to a value -/

/-- The midpoint below a value, in quarters of its last place. -/
def lowQuarters (x : Binary64) : ℕ :=
  if x.narrowBelow then 4 * x.significand - 1 else 4 * x.significand - 2

/-- The midpoint above a value, in quarters of its last place. -/
def highQuarters (x : Binary64) : ℕ := 4 * x.significand + 2

/-- A number rounds to a value: it lies between the midpoints to the two neighbours, and is one
    of them only if the significand is even. -/
structure Rounds (x : Binary64) (r : ℚ) : Prop where
  above : x.lowQuarters * 2 ^ (x.exponent - 2) ≤ r
  below : r ≤ x.highQuarters * 2 ^ (x.exponent - 2)
  tie : r = x.lowQuarters * 2 ^ (x.exponent - 2) ∨ r = x.highQuarters * 2 ^ (x.exponent - 2) →
    x.significand % 2 = 0

theorem two_le_lowQuarters (x : Binary64) (h : x.magnitude ≠ 0) : 2 ≤ x.lowQuarters := by
  have hpos := x.significand_pos h
  unfold lowQuarters
  split <;> omega

/-- What rounds to a value other than zero is not too small. -/
theorem Rounds.lower {x : Binary64} {r : ℚ} (hr : Rounds x r) (hx : x.magnitude ≠ 0) :
    2 ^ (-1075 : ℤ) ≤ r := by
  have hlow : (2 : ℚ) ≤ x.lowQuarters := by exact_mod_cast x.two_le_lowQuarters hx
  have hexp : (-1076 : ℤ) ≤ x.exponent - 2 := by have := x.exponent_ge; omega
  calc (2 : ℚ) ^ (-1075 : ℤ) = 2 * 2 ^ (-1076 : ℤ) := by
        rw [← zpow_one_add₀ two_ne_zero]
        norm_num
    _ ≤ x.lowQuarters * 2 ^ (x.exponent - 2) := by
        gcongr
        norm_num
    _ ≤ r := hr.above

/-- What rounds to a finite value is not too large. -/
theorem Rounds.upper {x : Binary64} {r : ℚ} (hr : Rounds x r) (hx : x.isFinite = true) :
    r < 2 ^ (1024 : ℤ) := by
  have hhigh : x.highQuarters < 2 ^ 55 := by
    have := x.significand_lt
    unfold highQuarters
    omega
  have hexp : x.exponent - 2 ≤ 969 := by have := x.exponent_le hx; omega
  calc r ≤ x.highQuarters * 2 ^ (x.exponent - 2) := hr.below
    _ < 2 ^ (55 : ℤ) * 2 ^ (x.exponent - 2) := by
        gcongr
        exact_mod_cast hhigh
    _ ≤ 2 ^ (55 : ℤ) * 2 ^ (969 : ℤ) := by
        gcongr
        norm_num
    _ = 2 ^ (1024 : ℤ) := by rw [← zpow_add₀ two_ne_zero]; norm_num

theorem Rounds.pos {x : Binary64} {r : ℚ} (hr : Rounds x r) (hx : x.magnitude ≠ 0) : 0 < r :=
  lt_of_lt_of_le (by positivity) (hr.lower hx)

/-! ## Reading a ratio -/

/-- A ratio lies between powers of two that the sizes of its two sides give. -/
theorem ratio_bounds {num den : ℕ} (hnum : 0 < num) (hden : 0 < den) :
    (2 : ℚ) ^ ((num.log2 : ℤ) - den.log2 - 1) < num / den ∧
      (num / den : ℚ) < 2 ^ ((num.log2 : ℤ) - den.log2 + 1) := by
  have hden' : (0 : ℚ) < den := by exact_mod_cast hden
  have hn₁ : (2 : ℚ) ^ num.log2 ≤ num := by exact_mod_cast Nat.log2_self_le hnum.ne'
  have hn₂ : (num : ℚ) < 2 ^ (num.log2 + 1) := by exact_mod_cast Nat.lt_log2_self
  have hd₁ : (2 : ℚ) ^ den.log2 ≤ den := by exact_mod_cast Nat.log2_self_le hden.ne'
  have hd₂ : (den : ℚ) < 2 ^ (den.log2 + 1) := by exact_mod_cast Nat.lt_log2_self
  -- the exponents are those of the powers of two around numerator and denominator
  have hlow : (2 : ℚ) ^ ((num.log2 : ℤ) - den.log2 - 1) * 2 ^ (den.log2 + 1) = 2 ^ num.log2 := by
    rw [← zpow_natCast, ← zpow_natCast, ← zpow_add₀ two_ne_zero]
    congr 1
    push_cast
    ring
  have hhigh : (2 : ℚ) ^ ((num.log2 : ℤ) - den.log2 + 1) * 2 ^ den.log2 = 2 ^ (num.log2 + 1) := by
    rw [← zpow_natCast, ← zpow_natCast, ← zpow_add₀ two_ne_zero]
    congr 1
    push_cast
    ring
  refine ⟨(lt_div_iff₀ hden').mpr ?_, (div_lt_iff₀ hden').mpr ?_⟩
  · calc (2 : ℚ) ^ ((num.log2 : ℤ) - den.log2 - 1) * den
        < 2 ^ ((num.log2 : ℤ) - den.log2 - 1) * 2 ^ (den.log2 + 1) := by gcongr
      _ ≤ num := hlow.trans_le hn₁
  · calc (num : ℚ) < 2 ^ ((num.log2 : ℤ) - den.log2 + 1) * 2 ^ den.log2 := hn₂.trans_eq hhigh.symm
      _ ≤ 2 ^ ((num.log2 : ℤ) - den.log2 + 1) * den := by gcongr

/-- The exponent that is chosen for a ratio gives it a significand of fifty-three bits, or is the
    least one. -/
theorem fittingExponent_spec {num den : ℕ} (hnum : 0 < num) (hden : 0 < den) :
    -1074 ≤ fittingExponent num den ∧
      (num / den : ℚ) < 2 ^ (fittingExponent num den + 53) ∧
      (-1074 < fittingExponent num den → 2 ^ (fittingExponent num den + 52) ≤ (num / den : ℚ)) := by
  obtain ⟨hlow, hhigh⟩ := ratio_bounds hnum hden
  unfold fittingExponent
  dsimp only
  simp only [Nat.pow_eq]
  generalize hq : (num.log2 : ℤ) - den.log2 - 52 = q
  rw [show (num.log2 : ℤ) - den.log2 - 1 = q + 51 by omega] at hlow
  rw [show (num.log2 : ℤ) - den.log2 + 1 = q + 53 by omega] at hhigh
  -- the test asks whether the first guess is one too high
  have htest : num * 2 ^ (-q).toNat < den * 2 ^ q.toNat * leadingBit
      ↔ (num / den : ℚ) < 2 ^ (q + 52) := by
    have hpos : (0 : ℚ) < (den * 2 ^ q.toNat : ℕ) := by positivity
    have hlt (m n : ℕ) : m < n ↔ (m : ℚ) < n := Nat.cast_lt.symm
    rw [zpow_add₀ two_ne_zero, mul_comm ((2 : ℚ) ^ q), ← div_lt_iff₀ (by positivity),
      ← ratio_scaled, div_lt_iff₀ hpos, hlt, mul_comm _ leadingBit]
    unfold leadingBit
    push_cast
    norm_num
  have hmono : ∀ i j : ℤ, i ≤ j → (2 : ℚ) ^ i ≤ 2 ^ j :=
    fun i j h => zpow_le_zpow_right₀ one_le_two h
  refine ⟨le_max_right _ _, ?_⟩
  by_cases hless : (num / den : ℚ) < 2 ^ (q + 52)
  · rw [if_pos (htest.mpr hless)]
    refine ⟨hless.trans_le (hmono _ _ (by omega)), ?_⟩
    intro hmax
    exact (hmono _ _ (by omega)).trans hlow.le
  · rw [if_neg (htest.not.mpr hless)]
    refine ⟨hhigh.trans_le (hmono _ _ (by omega)), ?_⟩
    intro hmax
    exact (hmono _ _ (by omega)).trans (not_lt.mp hless)

/-- A ratio that rounds to a value is never cut above the exponent of the value: its significand
    would have more than fifty-three bits. -/
theorem fittingExponent_le {x : Binary64} {num den : ℕ} (hnum : 0 < num) (hden : 0 < den)
    (hr : Rounds x (num / den)) : fittingExponent num den ≤ x.exponent := by
  obtain ⟨-, -, hlow⟩ := fittingExponent_spec hnum hden
  generalize fittingExponent num den = q at *
  by_contra hgt
  have hunit : (0 : ℚ) < 2 ^ (x.exponent - 2) := by positivity
  have hquarters : (2 : ℚ) ^ (q + 52 - (x.exponent - 2)) ≤ x.highQuarters := by
    rw [zpow_sub₀ two_ne_zero, div_le_iff₀ hunit]
    exact (hlow (by have := x.exponent_ge; omega)).trans hr.below
  have hle : (2 : ℚ) ^ (55 : ℤ) ≤ 2 ^ (q + 52 - (x.exponent - 2)) :=
    zpow_le_zpow_right₀ one_le_two (by omega)
  have hbound : 2 ^ 55 ≤ x.highQuarters := by exact_mod_cast hle.trans hquarters
  have := x.significand_lt
  unfold highQuarters at hbound
  omega

/-- A ratio that rounds to a value and is cut below the exponent of the value lies just below the
    least significand, and the cut is one place too low. -/
theorem fittingExponent_of_lt {x : Binary64} {num den : ℕ} (hnum : 0 < num) (hden : 0 < den)
    (hr : Rounds x (num / den)) (hlt : fittingExponent num den < x.exponent) :
    fittingExponent num den = x.exponent - 1 ∧ x.narrowBelow = true ∧
      (num / den : ℚ) < 2 ^ (x.exponent + 52) := by
  obtain ⟨hleast, hhigh, -⟩ := fittingExponent_spec hnum hden
  generalize fittingExponent num den = q at *
  have hnormal := x.significand_ge (by omega)
  -- a value so low can only be in the lower half of what rounds to the float
  have hbound (k : ℕ) (hk : q + 53 - (x.exponent - 2) ≤ k) : x.lowQuarters < 2 ^ k := by
    have hunit : (0 : ℚ) < 2 ^ (x.exponent - 2) := by positivity
    have hquarters : (x.lowQuarters : ℚ) < 2 ^ (q + 53 - (x.exponent - 2)) := by
      rw [zpow_sub₀ two_ne_zero, lt_div_iff₀ hunit]
      exact hr.above.trans_lt hhigh
    have hle : (2 : ℚ) ^ (q + 53 - (x.exponent - 2)) ≤ 2 ^ (k : ℤ) :=
      zpow_le_zpow_right₀ one_le_two hk
    exact_mod_cast hquarters.trans_le hle
  have hnarrow : x.narrowBelow = true := by
    have hlow := hbound 54 (by omega)
    rw [narrowBelow_iff]
    unfold lowQuarters at hlow
    split at hlow <;> omega
  have hq : q = x.exponent - 1 := by
    by_contra hne
    have hlow := hbound 53 (by omega)
    unfold lowQuarters at hlow
    split at hlow <;> omega
  refine ⟨hq, hnarrow, ?_⟩
  rw [hq, show x.exponent - 1 + 53 = x.exponent + 52 by omega] at hhigh
  exact hhigh

/-- The number that rounds to a value, in quarters of the value's last place. -/
theorem Rounds.quarters {x : Binary64} {r : ℚ} (hr : Rounds x r) :
    ∃ w : ℚ, r = w * 2 ^ (x.exponent - 2) ∧ x.lowQuarters ≤ w ∧ w ≤ x.highQuarters ∧
      (w = x.lowQuarters ∨ w = x.highQuarters → x.significand % 2 = 0) := by
  have hunit : (0 : ℚ) < 2 ^ (x.exponent - 2) := by positivity
  refine ⟨r / 2 ^ (x.exponent - 2), (div_mul_cancel₀ r hunit.ne').symm,
    (le_div_iff₀ hunit).mpr hr.above, (div_le_iff₀ hunit).mpr hr.below, ?_⟩
  rw [div_eq_iff hunit.ne', div_eq_iff hunit.ne']
  exact hr.tie

theorem cast_lowQuarters {x : Binary64} (hx : x.magnitude ≠ 0) :
    (x.lowQuarters : ℚ) = 4 * x.significand - if x.narrowBelow then 1 else 2 := by
  have hpos := x.significand_pos hx
  unfold lowQuarters
  split
  · rw [Nat.cast_sub (by omega)]
    push_cast
    ring
  · rw [Nat.cast_sub (by omega)]
    push_cast
    ring

theorem cast_highQuarters (x : Binary64) : (x.highQuarters : ℚ) = 4 * x.significand + 2 := by
  unfold highQuarters
  push_cast
  ring

section

variable {x : Binary64} (hx : x.magnitude ≠ 0) {num den : ℕ} (hden : 0 < den)
  (hr : Rounds x (num / den))
include hx hden hr

/-- Cut at the exponent of the value, the ratio is rounded to the significand. -/
theorem rounded_at_exponent :
    roundHalfEven (num * 2 ^ (-x.exponent).toNat) (den * 2 ^ x.exponent.toNat)
      = x.significand := by
  obtain ⟨w, hw, hlow, hhigh, htie⟩ := hr.quarters
  rw [cast_lowQuarters hx] at hlow htie
  rw [cast_highQuarters] at hhigh htie
  -- four quarters make a unit of the cut
  have hratio : ((num * 2 ^ (-x.exponent).toNat : ℕ) / (den * 2 ^ x.exponent.toNat : ℕ) : ℚ)
      = w / 4 := by
    rw [ratio_scaled, hw, zpow_sub₀ two_ne_zero]
    field_simp
    norm_num
  refine roundHalfEven_of_near (by positivity) ?_ ?_ ?_
  · rw [hratio]
    split at hlow <;> linarith
  · rw [hratio]
    linarith
  · rw [hratio]
    rintro (h | h)
    · split at hlow
      · linarith
      · rename_i hwide
        rw [if_neg hwide] at htie
        exact htie (Or.inl (by linarith))
    · exact htie (Or.inr (by linarith))

/-- Cut one place below the exponent of the value, the ratio is rounded up to a power of two. -/
theorem rounded_below_exponent (hnarrow : x.narrowBelow = true)
    (hbelow : (num / den : ℚ) < 2 ^ (x.exponent + 52)) :
    roundHalfEven (num * 2 ^ (-(x.exponent - 1)).toNat) (den * 2 ^ (x.exponent - 1).toNat)
      = 2 ^ 53 := by
  obtain ⟨w, hw, hlow, -, -⟩ := hr.quarters
  rw [cast_lowQuarters hx, if_pos hnarrow, (x.narrowBelow_iff.mp hnarrow).1] at hlow
  -- two quarters make a unit of the cut
  have hratio : ((num * 2 ^ (-(x.exponent - 1)).toNat : ℕ)
      / (den * 2 ^ (x.exponent - 1).toNat : ℕ) : ℚ) = w / 2 := by
    rw [ratio_scaled, hw, zpow_sub₀ two_ne_zero, zpow_sub₀ two_ne_zero]
    field_simp
  have hbound : w < 2 ^ 54 := by
    rw [hw, zpow_sub₀ two_ne_zero, zpow_add₀ two_ne_zero] at hbelow
    have hunit : (0 : ℚ) < 2 ^ x.exponent := by positivity
    field_simp at hbelow
    norm_num at hbelow ⊢
    linarith
  refine roundHalfEven_of_near (by positivity) ?_ ?_ fun _ => rfl
  · rw [hratio]
    norm_num at hlow ⊢
    linarith
  · rw [hratio]
    norm_num at hbound ⊢
    linarith

/-- Cut at its exponent and rounded, a ratio that rounds to a value has the fields of it. -/
theorem rounded_fields (hnum : 0 < num) :
    (fittingExponent num den + 1074).toNat * 2 ^ 52
        + roundHalfEven (num * 2 ^ (-fittingExponent num den).toNat)
            (den * 2 ^ (fittingExponent num den).toNat)
      = x.magnitude := by
  rw [x.magnitude_eq]
  rcases (fittingExponent_le hnum hden hr).lt_or_eq with hlt | heq
  · obtain ⟨heq, hnarrow, hbelow⟩ := fittingExponent_of_lt hnum hden hr hlt
    obtain ⟨hm, he⟩ := x.narrowBelow_iff.mp hnarrow
    rw [heq, rounded_below_exponent hx hden hr hnarrow hbelow, hm]
    omega
  · rw [heq, rounded_at_exponent hx hden hr]

end

/-- A ratio that rounds to a value is read as that value. -/
theorem ofRatio?_eq {x : Binary64} (hx : x.magnitude ≠ 0) (hfinite : x.isFinite = true)
    {num den : ℕ} (hden : 0 < den) (hr : Rounds x (num / den)) :
    ofRatio? x.negative num den = some x := by
  have hnum : 0 < num := by
    have hpos := hr.pos hx
    by_contra hzero
    rw [Nat.eq_zero_of_not_pos hzero] at hpos
    norm_num at hpos
  have hfields := rounded_fields hx hden hr hnum
  unfold isFinite at hfinite
  rw [decide_eq_true_iff] at hfinite
  unfold ofRatio?
  rw [if_neg hnum.ne']
  simp only [Nat.pow_eq, show leadingBit = 2 ^ 52 from rfl, hfields]
  exact if_pos hfinite

/-! ## Reading a decimal -/

theorem two_pow_lt_ten_pow : (2 : ℚ) ^ (1075 : ℤ) < 10 ^ (401 : ℤ) := by
  calc (2 : ℚ) ^ (1075 : ℤ) ≤ 2 ^ (3 * 401 : ℤ) := zpow_le_zpow_right₀ one_le_two (by norm_num)
    _ = 8 ^ (401 : ℤ) := by rw [zpow_mul]; norm_num
    _ < 10 ^ (401 : ℤ) := zpow_lt_zpow_left₀ (by norm_num) (by norm_num) (by norm_num)

section

variable {x : Binary64} {digits : ℕ} {exponent : ℤ} (hr : Rounds x (digits * 10 ^ exponent))
include hr

/-- The exponent of a decimal that rounds to a value is in the range that is read: one beyond it
    would make the decimal larger than what rounds to any value. -/
theorem Rounds.exponent_le (hfinite : x.isFinite = true) (hdigits : digits ≠ 0) :
    exponent ≤ 400 := by
  by_contra hfar
  have hone : (1 : ℚ) ≤ digits := by exact_mod_cast Nat.one_le_iff_ne_zero.mpr hdigits
  have hlt : (10 : ℚ) ^ (401 : ℤ) < 10 ^ (401 : ℤ) :=
    calc (10 : ℚ) ^ (401 : ℤ) ≤ 10 ^ exponent := zpow_le_zpow_right₀ (by norm_num) (by omega)
      _ ≤ digits * 10 ^ exponent := le_mul_of_one_le_left (by positivity) hone
      _ < 2 ^ (1024 : ℤ) := hr.upper hfinite
      _ ≤ 2 ^ (1075 : ℤ) := zpow_le_zpow_right₀ one_le_two (by norm_num)
      _ < 10 ^ (401 : ℤ) := two_pow_lt_ten_pow
  exact hlt.false

/-- A decimal that rounds to a value other than zero is not so small that it is read as zero. -/
theorem Rounds.size_ge (hx : x.magnitude ≠ 0) : -400 ≤ exponent + digits.log2 + 1 := by
  by_contra hfar
  have hsize : (digits : ℚ) < 10 ^ ((digits.log2 : ℤ) + 1) :=
    calc (digits : ℚ) < 2 ^ (digits.log2 + 1) := by exact_mod_cast Nat.lt_log2_self
      _ ≤ 10 ^ (digits.log2 + 1) := by gcongr; norm_num
      _ = 10 ^ ((digits.log2 : ℤ) + 1) := by norm_cast
  have hlt : (2 : ℚ) ^ (-1075 : ℤ) < 2 ^ (-1075 : ℤ) :=
    calc (2 : ℚ) ^ (-1075 : ℤ) ≤ digits * 10 ^ exponent := hr.lower hx
      _ ≤ 10 ^ ((digits.log2 : ℤ) + 1) * 10 ^ exponent := by gcongr
      _ = 10 ^ ((digits.log2 : ℤ) + 1 + exponent) := (zpow_add₀ (by norm_num) _ _).symm
      _ ≤ 10 ^ (-401 : ℤ) := zpow_le_zpow_right₀ (by norm_num) (by omega)
      _ < 2 ^ (-1075 : ℤ) := by
        rw [zpow_neg, zpow_neg]
        exact inv_strictAnti₀ (by positivity) two_pow_lt_ten_pow
  exact hlt.false

/-- A decimal that rounds to a value other than zero has digits other than zeros. -/
theorem Rounds.digits_ne_zero (hx : x.magnitude ≠ 0) : digits ≠ 0 := by
  rintro rfl
  have hpos := hr.pos hx
  norm_num at hpos

/-- A decimal that rounds to a value is read as that value. -/
theorem ofDecimal?_eq (hx : x.magnitude ≠ 0) (hfinite : x.isFinite = true) :
    ofDecimal? x.negative digits exponent = some x := by
  have hdigits := hr.digits_ne_zero hx
  unfold ofDecimal?
  rw [if_neg hdigits, if_neg (hr.exponent_le hfinite hdigits).not_gt,
    if_neg (hr.size_ge hx).not_gt]
  simp only [Nat.pow_eq]
  refine ofRatio?_eq hx hfinite (by positivity) ?_
  rw [zpow_eq_div] at hr
  push_cast
  rwa [← mul_div_assoc] at hr

end

/-! ## The shortest decimal -/

/-- A decimal that passes the test rounds to the value. -/
theorem rounds_of_readsBack {x : Binary64} {d : Decimal} (h : x.readsBack d = true) :
    Rounds x (d.digits * 10 ^ d.exponent) := by
  obtain ⟨-, hlowEq, hlowGt⟩ := compareScaled_iff d.digits d.exponent x.lowQuarters (x.exponent - 2)
  obtain ⟨hhighLt, hhighEq, -⟩ :=
    compareScaled_iff d.digits d.exponent x.highQuarters (x.exponent - 2)
  unfold readsBack at h
  simp only [decide_eq_true_iff] at h
  rw [← lowQuarters, ← highQuarters, hlowEq, hlowGt, hhighLt, hhighEq] at h
  obtain ⟨hlow, hhigh⟩ := h
  refine ⟨?_, ?_, ?_⟩
  · rcases hlow with h | ⟨-, h⟩
    · exact h.le
    · exact h.ge
  · rcases hhigh with h | ⟨-, h⟩
    · exact h.le
    · exact h.le
  · rintro (heq | heq)
    · rcases hlow with h | ⟨heven, -⟩
      · exact absurd heq h.ne'
      · exact heven
    · rcases hhigh with h | ⟨heven, -⟩
      · exact absurd heq h.ne
      · exact heven

/-- The decimal that a grid offers passes the test. -/
theorem readsBack_of_onGrid? {x : Binary64} {g : ℤ} {d : Decimal} (h : x.onGrid? g = some d) :
    x.readsBack d = true := by
  unfold onGrid? at h
  dsimp only at h
  split at h
  · rename_i hbelow habove
    obtain rfl := Option.some.inj h
    -- the nearer of the two is one of them
    rcases roundHalfEven_cases (x.significand * Nat.pow 2 x.exponent.toNat * Nat.pow 10 (-g).toNat)
      (Nat.pow 2 (-x.exponent).toNat * Nat.pow 10 g.toNat) with hround | hround
    · rw [hround]
      exact hbelow
    · rw [hround]
      exact habove
  · rename_i hbelow habove
    obtain rfl := Option.some.inj h
    exact hbelow
  · rename_i hbelow habove
    obtain rfl := Option.some.inj h
    exact habove
  · exact nomatch h

/-- Written out in full, a float keeps its value. -/
theorem exactDecimal_eq (x : Binary64) :
    (x.exactDecimal.digits * 10 ^ x.exactDecimal.exponent : ℚ)
      = x.significand * 2 ^ x.exponent := by
  unfold exactDecimal
  simp only [Nat.pow_eq]
  split
  · rename_i h
    rw [zpow_eq_div 2, show (-x.exponent).toNat = 0 by omega]
    push_cast
    norm_num
  · rename_i h
    rw [zpow_eq_div 2, zpow_eq_div 10, show x.exponent.toNat = 0 by omega]
    push_cast
    have hten : (10 : ℚ) ^ (-x.exponent).toNat
        = 5 ^ (-x.exponent).toNat * 2 ^ (-x.exponent).toNat := by
      rw [← mul_pow]
      norm_num
    rw [hten]
    field_simp

/-- A value lies between the midpoints to its neighbours. -/
theorem rounds_self {x : Binary64} (hx : x.magnitude ≠ 0) :
    Rounds x (x.significand * 2 ^ x.exponent) := by
  have hunit : (0 : ℚ) < 2 ^ (x.exponent - 2) := by positivity
  have hquarter : (x.significand * 2 ^ x.exponent : ℚ)
      = 4 * x.significand * 2 ^ (x.exponent - 2) := by
    rw [zpow_sub₀ two_ne_zero]
    field_simp
    norm_num
  have hlow : (x.lowQuarters : ℚ) < 4 * x.significand := by
    rw [cast_lowQuarters hx]
    split <;> linarith
  have hhigh : (4 * x.significand : ℚ) < x.highQuarters := by
    rw [cast_highQuarters]
    linarith
  rw [hquarter]
  refine ⟨by gcongr, by gcongr, ?_⟩
  rintro (h | h)
  · exact absurd (mul_right_cancel₀ hunit.ne' h) hlow.ne'
  · exact absurd (mul_right_cancel₀ hunit.ne' h) hhigh.ne

/-- The decimal that is chosen for a value rounds to it. -/
theorem shortest_rounds {x : Binary64} (hx : x.magnitude ≠ 0) :
    Rounds x (x.shortest.digits * 10 ^ x.shortest.exponent) := by
  unfold shortest
  dsimp only
  cases h : (List.range 17).findSome? fun n : ℕ => x.onGrid? (x.decimalScale - n - 1) with
  | some d =>
      obtain ⟨n, -, hd⟩ := List.exists_of_findSome?_eq_some h
      exact rounds_of_readsBack (readsBack_of_onGrid? hd)
  | none =>
      rw [Option.getD_none, exactDecimal_eq]
      exact rounds_self hx

end Binary64

end Switchboard
