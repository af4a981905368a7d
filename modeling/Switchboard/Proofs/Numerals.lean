import Mathlib
import Switchboard.Json.Token
import Switchboard.Proofs.Rounding

/-!
# Numerals that read back

A number is written as a numeral of up to three parts: a whole part, a
fraction and an exponent. Each part has a reader of its own, and each reader
takes exactly its part if what follows cannot belong to it (`NoDigit`,
`NumeralEnd`).

An integer reads back because its digits do. A binary64 value reads back
because the decimal that was chosen for it rounds to it, and neither leaving
out zeros at the end nor moving the point changes which rational number the
digits stand for.
-/

namespace Switchboard

/-! ## Digits -/

/-- A text of decimal digits. -/
def AllDigits (ds : List Char) : Prop := ∀ c ∈ ds, c.isDigit = true

/-- Digits of which the first is not zero. -/
structure Significant (ds : List Char) : Prop where
  digits : AllDigits ds
  nonempty : ds ≠ []
  first : ds.head? ≠ some '0'

theorem AllDigits.append {as bs : List Char} (ha : AllDigits as) (hb : AllDigits bs) :
    AllDigits (as ++ bs) := by
  intro c hc
  rcases List.mem_append.mp hc with h | h
  · exact ha c h
  · exact hb c h

theorem AllDigits.sublist {as bs : List Char} (h : as.Sublist bs) (hb : AllDigits bs) :
    AllDigits as :=
  fun c hc => hb c (h.subset hc)

theorem allDigits_zeros (k : ℕ) : AllDigits (List.replicate k '0') := by
  intro c hc
  rw [List.eq_of_mem_replicate hc]
  rfl

/-- Digits count ten times as much for each digit behind them. -/
theorem digitsValue_append (as bs : List Char) :
    digitsValue (as ++ bs) = digitsValue as * 10 ^ bs.length + digitsValue bs := by
  show Nat.ofDigitChars 10 (as ++ bs) 0 = _
  rw [Nat.ofDigitChars_append, Nat.ofDigitChars_eq_ofDigitChars_zero, Nat.mul_comm]
  rfl

@[simp] theorem digitsValue_zeros (k : ℕ) : digitsValue (List.replicate k '0') = 0 := by
  show Nat.ofDigitChars 10 (List.replicate k '0') 0 = 0
  rw [Nat.ofDigitChars_replicate_zero, Nat.mul_zero]

theorem digitsValue_zeros_append (k : ℕ) (ds : List Char) :
    digitsValue (List.replicate k '0' ++ ds) = digitsValue ds := by
  rw [digitsValue_append, digitsValue_zeros, Nat.zero_mul, Nat.zero_add]

/-- Each zero behind is a factor of ten. -/
theorem digitsValue_append_zeros (ds : List Char) (k : ℕ) :
    digitsValue (ds ++ List.replicate k '0') = digitsValue ds * 10 ^ k := by
  rw [digitsValue_append, digitsValue_zeros, List.length_replicate, Nat.add_zero]

/-- The digits of a number have its value. -/
@[simp] theorem digitsValue_natDigits (n : ℕ) : digitsValue (natDigits n) = n :=
  Nat.ofDigitChars_ten_toDigits

theorem allDigits_natDigits (n : ℕ) : AllDigits (natDigits n) :=
  fun _ hc => Nat.isDigit_of_mem_toDigits (by norm_num) (by norm_num) hc

theorem natDigits_ne_nil (n : ℕ) : natDigits n ≠ [] := Nat.toDigits_ne_nil

/-- Only zero is written with a zero in front. -/
theorem head?_natDigits {n : ℕ} (hn : n ≠ 0) : (natDigits n).head? ≠ some '0' := by
  induction n using Nat.strong_induction_on with
  | _ n ih =>
      unfold natDigits at ih ⊢
      by_cases hlt : n < 10
      · rw [Nat.toDigits_of_lt_base hlt]
        interval_cases n
        · exact absurd rfl hn
        all_goals decide
      · -- the last digit is not the first one, so the quotient decides
        rw [Nat.toDigits_of_base_le (by norm_num) (by omega),
          List.head?_append_of_ne_nil _ Nat.toDigits_ne_nil]
        exact ih (n / 10) (by omega) (by omega)

theorem significant_natDigits {n : ℕ} (hn : n ≠ 0) : Significant (natDigits n) :=
  ⟨allDigits_natDigits n, natDigits_ne_nil n, head?_natDigits hn⟩

/-- Zeros at the end are left out. -/
theorem exists_zeros (ds : List Char) :
    ∃ k, ds = (ds.reverse.dropWhile (· = '0')).reverse ++ List.replicate k '0' := by
  refine ⟨(ds.reverse.takeWhile (· = '0')).length, ?_⟩
  have hzeros : ds.reverse.takeWhile (· = '0')
      = List.replicate (ds.reverse.takeWhile (· = '0')).length '0' :=
    List.eq_replicate_of_mem fun c hc => by simpa using List.mem_takeWhile_imp hc
  rw [← List.reverse_replicate, ← hzeros, ← List.reverse_append, List.takeWhile_append_dropWhile,
    List.reverse_reverse]

/-- Without zeros at the end, the first digit is still not zero. -/
theorem Significant.of_append_zeros {ds : List Char} {k : ℕ}
    (h : Significant (ds ++ List.replicate k '0')) : Significant ds := by
  cases ds with
  | nil =>
      cases k with
      | zero => exact absurd rfl h.nonempty
      | succ k => exact absurd rfl h.first
  | cons c ds => exact ⟨h.digits.sublist (List.sublist_append_left _ _), nofun, h.first⟩

theorem Significant.take {ds : List Char} (h : Significant ds) (k : ℕ) :
    Significant (ds.take (k + 1)) := by
  cases ds with
  | nil => exact absurd rfl h.nonempty
  | cons c ds => exact ⟨h.digits.sublist (List.take_sublist _ _), nofun, h.first⟩

/-! ## The readers of the parts -/

/-- A text that does not go on with a digit. -/
def NoDigit (rest : List Char) : Prop := ∀ c ∈ rest.head?, c.isDigit = false

/-- A text that no numeral in front of it runs on into. -/
def NumeralEnd (rest : List Char) : Prop :=
  ∀ c ∈ rest.head?, c.isDigit = false ∧ c ≠ '.' ∧ c ≠ 'e' ∧ c ≠ 'E'

theorem NumeralEnd.noDigit {rest : List Char} (h : NumeralEnd rest) : NoDigit rest :=
  fun c hc => (h c hc).1

theorem noDigit_cons {c : Char} (hc : c.isDigit = false) (rest : List Char) :
    NoDigit (c :: rest) := by
  rintro d ⟨⟩
  exact hc

/-- Digits are read up to the first character that is none. -/
theorem digits?_append {ds rest : List Char} (hds : AllDigits ds) (hne : ds ≠ [])
    (hrest : NoDigit rest) : digits? (ds ++ rest) = some (ds, rest) := by
  have hstop : rest.takeWhile Char.isDigit = [] ∧ rest.dropWhile Char.isDigit = rest := by
    cases rest with
    | nil => exact ⟨rfl, rfl⟩
    | cons c rest =>
        have hc : ¬c.isDigit = true := by simp [hrest c rfl]
        exact ⟨List.takeWhile_cons_of_neg hc, List.dropWhile_cons_of_neg hc⟩
  unfold digits?
  rw [List.takeWhile_append_of_pos hds, List.dropWhile_append_of_pos hds, hstop.1, hstop.2,
    List.append_nil]
  cases ds with
  | nil => exact absurd rfl hne
  | cons c ds => rfl

theorem whole?_zero (rest : List Char) : whole? ('0' :: rest) = some (['0'], rest) := rfl

theorem whole?_append {ds rest : List Char} (hds : Significant ds) (hrest : NoDigit rest) :
    whole? (ds ++ rest) = some (ds, rest) := by
  have hdigits := digits?_append hds.digits hds.nonempty hrest
  unfold whole?
  split
  · rename_i heq
    cases ds with
    | nil => exact absurd rfl hds.nonempty
    | cons c ds => exact absurd (congrArg some (List.cons.inj heq).1) hds.first
  · exact hdigits

/-- A fraction is read from behind the point. -/
theorem fraction?_point {ds rest : List Char} (hds : AllDigits ds) (hne : ds ≠ [])
    (hrest : NoDigit rest) : fraction? ('.' :: (ds ++ rest)) = some (ds, rest) :=
  digits?_append hds hne hrest

theorem fraction?_none {rest : List Char} (h : rest.head? ≠ some '.') :
    fraction? rest = some ([], rest) := by
  unfold fraction?
  split
  · exact absurd rfl h
  · rfl

theorem exponentDigits?_append (negative : Bool) {ds rest : List Char} (hds : AllDigits ds)
    (hne : ds ≠ []) (hrest : NoDigit rest) :
    exponentDigits? negative (ds ++ rest)
      = some (some (if negative then -(digitsValue ds : ℤ) else digitsValue ds), rest) := by
  unfold exponentDigits?
  rw [digits?_append hds hne hrest]
  rfl

/-- An exponent is read with its sign. -/
theorem exponent?_mark (e : ℤ) {rest : List Char} (hrest : NoDigit rest) :
    exponent? ('e' :: (if e < 0 then '-' else '+') :: (natDigits e.natAbs ++ rest))
      = some (some e, rest) := by
  have hdigits (negative : Bool) := exponentDigits?_append negative
    (allDigits_natDigits e.natAbs) (natDigits_ne_nil e.natAbs) hrest
  rw [digitsValue_natDigits] at hdigits
  by_cases he : e < 0
  · rw [if_pos he]
    refine (hdigits true).trans ?_
    rw [if_pos rfl, Int.ofNat_natAbs_of_nonpos he.le, neg_neg]
  · rw [if_neg he]
    refine (hdigits false).trans ?_
    rw [if_neg Bool.false_ne_true, Int.natAbs_of_nonneg (not_lt.mp he)]

theorem exponent?_none {rest : List Char} (h : NumeralEnd rest) :
    exponent? rest = some (none, rest) := by
  cases rest with
  | nil => rfl
  | cons c rest =>
      obtain ⟨-, -, he, hE⟩ := h c rfl
      exact if_neg (by simp [he, hE])

/-! ## Numerals -/

/-- A number is read from its parts one after the other. -/
theorem unsigned?_eq {negative : Bool} {cs w cs₁ f cs₂ rest : List Char} {e : Option ℤ} {n : Number}
    (hw : whole? cs = some (w, cs₁)) (hf : fraction? cs₁ = some (f, cs₂))
    (he : exponent? cs₂ = some (e, rest)) (hn : Number.ofParts? negative w f e = some n) :
    unsigned? negative cs = some (n, rest) := by
  unfold unsigned?
  simp only [hw, hf, he, hn, Option.bind_eq_bind, Option.bind_some]

/-- A numeral that is read without its sign is read with it. -/
theorem numeral?_of_unsigned? {negative : Bool} {cs rest : List Char} {n : Number}
    (h : unsigned? negative cs = some (n, rest)) :
    numeral? ((if negative then ['-'] else []) ++ cs) = some (n, rest) := by
  cases negative with
  | true => exact h
  | false =>
      show numeral? cs = _
      unfold numeral?
      split
      · -- a whole part does not begin with a sign
        exact nomatch h
      · exact h

/-- An integer reads back. -/
theorem numeral?_intDigits {n : ℤ} (hn : Number.isExact n = true) {rest : List Char}
    (hrest : NumeralEnd rest) : numeral? (intDigits n ++ rest) = some (.int n, rest) := by
  have hwhole : whole? (natDigits n.natAbs ++ rest) = some (natDigits n.natAbs, rest) := by
    by_cases hzero : n.natAbs = 0
    · rw [hzero]
      exact whole?_zero rest
    · exact whole?_append (significant_natDigits hzero) hrest.noDigit
  have hfraction : fraction? rest = some ([], rest) :=
    fraction?_none fun h => (hrest '.' h).2.1 rfl
  have hsign : intDigits n = (if decide (n < 0) then ['-'] else []) ++ natDigits n.natAbs := by
    unfold intDigits
    split <;> simp_all
  have hparts : Number.ofParts? (decide (n < 0)) (natDigits n.natAbs) [] none = some (.int n) := by
    have habs : (if decide (n < 0) = true then -(n.natAbs : ℤ) else n.natAbs) = n := by
      simp only [decide_eq_true_eq]
      split <;> omega
    unfold Number.ofParts?
    rw [List.append_nil, digitsValue_natDigits]
    dsimp only
    rw [if_pos ⟨rfl, rfl, by rw [decide_eq_true_eq]; omega⟩, habs, if_pos hn]
  rw [hsign, List.append_assoc]
  exact numeral?_of_unsigned? (unsigned?_eq hwhole hfraction (exponent?_none hrest) hparts)

/-! ## Binary64 values -/

/-- Zeros behind the digits of a decimal make up for a lower exponent. -/
theorem Binary64.Rounds.shift {x : Binary64} {digits digits' k : ℕ} {i i' : ℤ}
    (hr : x.Rounds (digits * 10 ^ i)) (hdigits : digits' = digits * 10 ^ k) (hi : i' + k = i) :
    x.Rounds (digits' * 10 ^ i') := by
  have hvalue : (digits' * 10 ^ i' : ℚ) = digits * 10 ^ i := by
    rw [hdigits, ← hi, zpow_add₀ (by norm_num), zpow_natCast]
    push_cast
    ring
  rwa [hvalue]

section

variable {x : Binary64} (hx : x.magnitude ≠ 0) (hfinite : x.isFinite = true)
include hx hfinite

/-- The parts of a numeral that has a fraction or an exponent stand for the value that the number
    rounds to. -/
theorem ofParts?_rounds {w f : List Char} {e : Option ℤ} (hfloat : f ≠ [] ∨ e ≠ none)
    (hr : x.Rounds (digitsValue (w ++ f) * 10 ^ (e.getD 0 - f.length))) :
    Number.ofParts? x.negative w f e = some (.float x) := by
  have hinteger : ¬(f = [] ∧ e = none ∧ ¬(x.negative = true ∧ digitsValue (w ++ f) = 0)) := by
    rintro ⟨hf, he, -⟩
    exact hfloat.elim (absurd hf) (absurd he)
  unfold Number.ofParts?
  dsimp only
  rw [if_neg hinteger, Binary64.ofDecimal?_eq hr hx hfinite]
  rfl

variable {ds : List Char} (hds : Significant ds) {e : ℤ}
  (hr : x.Rounds (digitsValue ds * 10 ^ (e + 1 - ds.length))) {rest : List Char}
  (hrest : NumeralEnd rest)
include hr hrest

/-- Digits on both sides of a point, which are the digits of the number but for zeros, are read as
    the value that the number rounds to. -/
theorem unsigned?_point {w f : List Char} {k : ℕ}
    (hwhole : whole? (w ++ '.' :: (f ++ rest)) = some (w, '.' :: (f ++ rest)))
    (hf : AllDigits f) (hne : f ≠ []) (hvalue : digitsValue (w ++ f) = digitsValue ds * 10 ^ k)
    (hplace : e + 1 - ds.length = k - f.length) :
    unsigned? x.negative (w ++ '.' :: (f ++ rest)) = some (.float x, rest) := by
  refine unsigned?_eq hwhole (fraction?_point hf hne hrest.noDigit) (exponent?_none hrest)
    (ofParts?_rounds hx hfinite (Or.inl hne) (hr.shift hvalue ?_))
  rw [Option.getD_none]
  omega

include hds

/-- Digits around a decimal point are read as the value that the number rounds to. -/
theorem unsigned?_positional :
    unsigned? x.negative (positional ds e ++ rest) = some (.float x, rest) := by
  have hpoint (cs : List Char) : NoDigit ('.' :: cs) := noDigit_cons (by decide) cs
  unfold positional
  by_cases hneg : e < 0
  · -- zeros stand between the point and the digits
    rw [if_pos hneg]
    have hvalue : digitsValue (['0'] ++ (List.replicate ((-e).toNat - 1) '0' ++ ds))
        = digitsValue ds * 10 ^ 0 := by
      rw [pow_zero, mul_one, ← digitsValue_zeros_append _ ds]
      exact digitsValue_zeros_append 1 _
    refine unsigned?_point hx hfinite hr hrest (whole?_zero _)
      ((allDigits_zeros _).append hds.digits) (by simp [hds.nonempty]) hvalue ?_
    rw [List.length_append, List.length_replicate]
    omega
  · rw [if_neg hneg]
    by_cases hinside : e.toNat + 1 < ds.length
    · -- the point stands between the digits
      rw [if_pos hinside, List.append_assoc, List.cons_append]
      have hvalue : digitsValue (ds.take (e.toNat + 1) ++ ds.drop (e.toNat + 1))
          = digitsValue ds * 10 ^ 0 := by
        rw [List.take_append_drop, pow_zero, mul_one]
      refine unsigned?_point hx hfinite hr hrest (whole?_append (hds.take _) (hpoint _))
        (hds.digits.sublist (List.drop_sublist _ _)) (by simpa using hinside) hvalue ?_
      rw [List.length_drop]
      omega
    · -- the digits and some zeros stand in front of the point
      rw [if_neg hinside, List.append_assoc]
      generalize hk : e.toNat + 1 - ds.length = k
      have hw : Significant (ds ++ List.replicate k '0') := by
        refine ⟨hds.digits.append (allDigits_zeros k), ?_, ?_⟩
        · simp [hds.nonempty]
        · rw [List.head?_append_of_ne_nil _ hds.nonempty]
          exact hds.first
      have hvalue : digitsValue (ds ++ List.replicate k '0' ++ ['0'])
          = digitsValue ds * 10 ^ (k + 1) := by
        rw [List.append_assoc, ← digitsValue_append_zeros, List.replicate_succ']
      refine unsigned?_point hx hfinite hr hrest (whole?_append hw (hpoint _))
        (allDigits_zeros 1) nofun hvalue ?_
      simp only [List.length_cons, List.length_nil]
      omega

/-- Digits with an exponent behind them are read as the value that the number rounds to. -/
theorem unsigned?_scientific :
    unsigned? x.negative (scientific ds e ++ rest) = some (.float x, rest) := by
  have hexponent := exponent?_mark e hrest.noDigit
  unfold scientific
  rw [List.append_assoc, List.append_assoc, List.cons_append, List.cons_append]
  generalize hmarked : 'e' :: (if e < 0 then '-' else '+') :: (natDigits e.natAbs ++ rest) = marked
    at hexponent
  have hmark : NoDigit marked := hmarked ▸ noDigit_cons (by decide) _
  -- a single digit goes without a point, and then the fraction is empty
  have hfraction : NoDigit ((if ds.length ≤ 1 then [] else '.' :: ds.drop 1) ++ marked) ∧
      fraction? ((if ds.length ≤ 1 then [] else '.' :: ds.drop 1) ++ marked)
        = some (ds.drop 1, marked) := by
    by_cases hsingle : ds.length ≤ 1
    · rw [if_pos hsingle, List.drop_eq_nil_of_le hsingle, List.nil_append]
      exact ⟨hmark, fraction?_none (by simp [← hmarked])⟩
    · rw [if_neg hsingle, List.cons_append]
      have hne : ds.drop 1 ≠ [] := List.drop_eq_nil_iff.not.mpr hsingle
      exact ⟨noDigit_cons (by decide) _,
        fraction?_point (hds.digits.sublist (List.drop_sublist _ _)) hne hmark⟩
  have hvalue : digitsValue (ds.take 1 ++ ds.drop 1) = digitsValue ds * 10 ^ 0 := by
    rw [List.take_append_drop, pow_zero, mul_one]
  refine unsigned?_eq (whole?_append (hds.take 0) hfraction.1) hfraction.2 hexponent
    (ofParts?_rounds hx hfinite (Or.inr nofun) (hr.shift hvalue ?_))
  have hlength := List.length_pos_iff.mpr hds.nonempty
  rw [List.length_drop, Option.getD_some]
  omega

end

/-- The digits of a decimal that rounds to a value, less the zeros at their end, are significant,
    and put at the exponent of the first digit they round to the value. -/
theorem significant_of_rounds {x : Binary64} (hx : x.magnitude ≠ 0) {digits : ℕ} {exponent : ℤ}
    (hr : x.Rounds (digits * 10 ^ exponent)) {ds : List Char}
    (hds : ds = ((natDigits digits).reverse.dropWhile (· = '0')).reverse) :
    Significant ds ∧ x.Rounds (digitsValue ds
      * 10 ^ (exponent + (natDigits digits).length - 1 + 1 - ds.length)) := by
  obtain ⟨k, hk⟩ := exists_zeros (natDigits digits)
  rw [← hds] at hk
  have hvalue : (digitsValue ds * 10 ^ k : ℕ) = digits := by
    rw [← digitsValue_append_zeros, ← hk, digitsValue_natDigits]
  have hlength : (natDigits digits).length = ds.length + k := by
    conv_lhs => rw [hk]
    rw [List.length_append, List.length_replicate]
  have hexponent : exponent + (natDigits digits).length - 1 + 1 - ds.length = exponent + k := by
    omega
  refine ⟨(hk ▸ significant_natDigits (hr.digits_ne_zero hx)).of_append_zeros, ?_⟩
  rw [hexponent, add_comm, zpow_add₀ (by norm_num), ← mul_assoc, zpow_natCast]
  rw [← hvalue] at hr
  push_cast at hr
  exact hr

/-- A finite binary64 value reads back. -/
theorem numeral?_chars {x : Binary64} (hfinite : x.isFinite = true) {rest : List Char}
    (hrest : NumeralEnd rest) : numeral? (x.chars ++ rest) = some (.float x, rest) := by
  unfold Binary64.chars
  dsimp only
  by_cases hx : x.magnitude = 0
  · -- zero is written with its sign, and the digits stand for zero of that sign
    obtain ⟨negative, magnitude⟩ := x
    obtain rfl : magnitude = 0 := hx
    rw [if_pos rfl, List.append_assoc]
    exact numeral?_of_unsigned? (unsigned?_eq (whole?_zero _)
      (fraction?_point (allDigits_zeros 1) nofun hrest.noDigit) (exponent?_none hrest) rfl)
  · rw [if_neg hx, List.append_assoc]
    obtain ⟨hds, hr⟩ := significant_of_rounds hx (x.shortest_rounds hx) rfl
    refine numeral?_of_unsigned? ?_
    split
    · exact unsigned?_positional hx hfinite hds hr hrest
    · exact unsigned?_scientific hx hfinite hds hr hrest

/-- Whether a number is one that can be written: an integer in the range of integers, or a finite
    binary64 value. -/
def Number.Valid : Number → Prop
  | .int n => isExact n = true
  | .float x => x.isFinite = true

/-- Every number reads back. -/
theorem numeral?_append {n : Number} (hn : n.Valid) {rest : List Char} (hrest : NumeralEnd rest) :
    numeral? (n.chars ++ rest) = some (n, rest) := by
  cases n with
  | int n => exact numeral?_intDigits hn hrest
  | float x => exact numeral?_chars hn hrest

end Switchboard
