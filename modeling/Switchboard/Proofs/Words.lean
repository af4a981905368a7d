import Mathlib.Data.Char
import Mathlib.Data.List.Induction
import Mathlib.Data.List.Shortlex
import Mathlib.Data.Set.Card
import Switchboard.Proofs.Rendering

/-!
# Words and their ranks

A word is written in lower-case letters. Words are ordered by their length and
words of one length alphabetically, and the `rank` of a word is its place in
this order, counted from 1: a word is read as a number with 26 digits, of which
`a` is 1 and `z` is 26, so that no digit is zero and no two words have the same
rank. The automatic names go through the ranks one by one
(`rank_autoLetters`), and every word is the name at its rank
(`autoLetters_rank`).
-/

namespace Switchboard

/-! ## Letters -/

/-- The lower-case letters. -/
def IsLetter (c : Char) : Prop := 'a' ≤ c ∧ c ≤ 'z'

/-- The place of a letter in the alphabet, counted from 1. -/
def place (c : Char) : Nat := c.toNat - 'a'.toNat + 1

theorem isLetter_iff {c : Char} : IsLetter c ↔ 'a'.toNat ≤ c.toNat ∧ c.toNat ≤ 'z'.toNat := Iff.rfl

theorem isLetter_letter {n : Nat} (h : n < 26) : IsLetter (letter n) := by
  have hall : ∀ n < 26, 'a' ≤ letter n ∧ letter n ≤ 'z' := by decide
  exact hall n h

theorem place_letter {n : Nat} (h : n < 26) : place (letter n) = n + 1 := by
  have hall : ∀ n < 26, place (letter n) = n + 1 := by decide
  exact hall n h

theorem letter_place {c : Char} (h : IsLetter c) : letter (place c - 1) = c := by
  obtain ⟨hlow, -⟩ := isLetter_iff.mp h
  unfold letter place
  rw [Nat.add_sub_cancel, Nat.add_sub_cancel' hlow, Char.ofNat_toNat]

theorem one_le_place (c : Char) : 1 ≤ place c := Nat.le_add_left 1 _

theorem place_le {c : Char} (h : IsLetter c) : place c ≤ 26 := by
  obtain ⟨-, hhigh⟩ := isLetter_iff.mp h
  have hz : 'z'.toNat = 'a'.toNat + 25 := rfl
  unfold place
  omega

theorem place_lt_place {c d : Char} (hc : IsLetter c) (h : c < d) : place c < place d := by
  obtain ⟨hlow, -⟩ := isLetter_iff.mp hc
  have hlt : c.toNat < d.toNat := h
  unfold place
  omega

/-! ## Ranks -/

/-- The rank of a word of which some letters in front have a rank already. -/
def rankFrom (front : Nat) (w : List Char) : Nat := w.foldl (fun n c => 26 * n + place c) front

/-- The place of a word among all words, counted from 1. -/
def rank (w : List Char) : Nat := rankFrom 0 w

theorem rank_singleton (c : Char) : rank [c] = place c := Nat.zero_add _

/-- One letter more makes 26 words of each. -/
theorem rank_concat (w : List Char) (c : Char) : rank (w ++ [c]) = 26 * rank w + place c :=
  List.foldl_append

theorem rankFrom_cons (front : Nat) (c : Char) (w : List Char) :
    rankFrom front (c :: w) = rankFrom (26 * front + place c) w := rfl

/-- The automatic names have the ranks from 1 on. -/
theorem rank_autoLetters (index : Nat) : rank (autoLetters index) = index + 1 := by
  induction index using autoLetters.induct with
  | case1 index h =>
      rw [autoLetters, if_pos h]
      exact (rank_singleton _).trans (place_letter h)
  | case2 index h ih =>
      rw [autoLetters, if_neg h, rank_concat, ih, place_letter (Nat.mod_lt _ (by decide))]
      omega

/-- Names are made up of letters alone. -/
theorem isLetter_of_mem_autoLetters (index : Nat) : ∀ c ∈ autoLetters index, IsLetter c := by
  induction index using autoLetters.induct with
  | case1 index h =>
      rw [autoLetters, if_pos h]
      exact List.forall_mem_singleton.mpr (isLetter_letter h)
  | case2 index h ih =>
      rw [autoLetters, if_neg h]
      have hlast := isLetter_letter (Nat.mod_lt index (show 0 < 26 by decide))
      exact List.forall_mem_append.mpr ⟨ih, List.forall_mem_singleton.mpr hlast⟩

theorem one_le_rank {w : List Char} (hne : w ≠ []) : 1 ≤ rank w := by
  obtain ⟨front, c, rfl⟩ := (List.eq_nil_or_concat' w).resolve_left hne
  have hc := one_le_place c
  rw [rank_concat]
  omega

/-- Every word is the automatic name of its rank. -/
theorem autoLetters_rank {w : List Char} (hne : w ≠ []) (hw : ∀ c ∈ w, IsLetter c) :
    autoLetters (rank w - 1) = w := by
  induction w using List.reverseRecOn with
  | nil => exact absurd rfl hne
  | append_singleton w c ih =>
      obtain ⟨hfront, hlast⟩ := List.forall_mem_append.mp hw
      have hc := List.forall_mem_singleton.mp hlast
      have hle := place_le hc
      have hpos := one_le_place c
      by_cases hnil : w = []
      · rw [hnil, List.nil_append, rank_singleton, autoLetters, if_pos (by omega),
          letter_place hc]
      · have hrank := one_le_rank hnil
        -- what is left when the last place is taken off is the rank of the letters in front
        have hdiv : (26 * rank w + place c - 1) / 26 = rank w := by omega
        have hmod : (26 * rank w + place c - 1) % 26 = place c - 1 := by omega
        rw [rank_concat, autoLetters, if_neg (by omega), hdiv, hmod, ih hnil hfront,
          letter_place hc]

/-! ## The order of words -/

/-- Shorter words come first, and words of one length in alphabetical order. -/
def Precedes (v w : List Char) : Prop := List.Shortlex (· < ·) v w

/-- The rank of the first word of a length. -/
def firstRank : Nat → Nat
  | 0 => 0
  | n + 1 => 26 * firstRank n + 1

/-- Longer words come later. -/
theorem firstRank_mono : Monotone firstRank := by
  refine monotone_nat_of_le_succ ?_
  intro n
  rw [firstRank]
  omega

/-- Words of a length are ranked behind all shorter ones and in front of all longer ones. -/
theorem rank_bounds {w : List Char} (hw : ∀ c ∈ w, IsLetter c) :
    firstRank w.length ≤ rank w ∧ rank w < firstRank (w.length + 1) := by
  induction w using List.reverseRecOn with
  | nil => exact ⟨Nat.le_refl 0, Nat.zero_lt_one⟩
  | append_singleton w c ih =>
      obtain ⟨hfront, hlast⟩ := List.forall_mem_append.mp hw
      obtain ⟨hlow, hhigh⟩ := ih hfront
      have hle := place_le (List.forall_mem_singleton.mp hlast)
      have hpos := one_le_place c
      rw [List.length_append, List.length_singleton, rank_concat, firstRank, firstRank]
      omega

/-- What is in front decides, whatever letters follow. -/
theorem rankFrom_lt_of_lt {m n : Nat} (hmn : m < n) {v w : List Char}
    (hlength : v.length = w.length) (hv : ∀ c ∈ v, IsLetter c) :
    rankFrom m v < rankFrom n w := by
  induction v generalizing m n w with
  | nil =>
      obtain rfl := List.length_eq_zero_iff.mp hlength.symm
      exact hmn
  | cons c v ih =>
      obtain ⟨d, w, rfl⟩ := List.exists_of_length_succ w hlength.symm
      obtain ⟨hc, hv⟩ := List.forall_mem_cons.mp hv
      have hle := place_le hc
      have hpos := one_le_place d
      rw [rankFrom_cons, rankFrom_cons]
      exact ih (by omega) (Nat.succ.inj hlength) hv

/-- Of two words of one length the one that is first in the dictionary has the lower rank. -/
theorem rankFrom_lt_of_lex {v w : List Char} (hlex : List.Lex (· < ·) v w)
    (hlength : v.length = w.length) (hv : ∀ c ∈ v, IsLetter c) (front : Nat) :
    rankFrom front v < rankFrom front w := by
  induction hlex generalizing front with
  | nil => exact nomatch hlength
  | @cons c v w _ ih =>
      rw [rankFrom_cons, rankFrom_cons]
      exact ih (Nat.succ.inj hlength) (List.forall_mem_cons.mp hv).2 _
  | @rel c v d w hcd =>
      obtain ⟨hc, hv⟩ := List.forall_mem_cons.mp hv
      have hplace := place_lt_place hc hcd
      rw [rankFrom_cons, rankFrom_cons]
      exact rankFrom_lt_of_lt (by omega) (Nat.succ.inj hlength) hv

/-- Words are ranked in their order. -/
theorem Precedes.rank_lt {v w : List Char} (h : Precedes v w) (hv : ∀ c ∈ v, IsLetter c)
    (hw : ∀ c ∈ w, IsLetter c) : rank v < rank w := by
  rcases List.shortlex_def.mp h with hlength | ⟨hlength, hlex⟩
  · calc
      rank v < firstRank (v.length + 1) := (rank_bounds hv).2
      _ ≤ firstRank w.length := firstRank_mono hlength
      _ ≤ rank w := (rank_bounds hw).1
  · exact rankFrom_lt_of_lex hlex hlength hv 0

/-- The automatic names come in the order of words. -/
theorem precedes_autoLetters_iff {m n : Nat} :
    Precedes (autoLetters m) (autoLetters n) ↔ m < n := by
  have hrank {m n : Nat} (h : Precedes (autoLetters m) (autoLetters n)) : m < n := by
    have hlt := h.rank_lt (isLetter_of_mem_autoLetters m) (isLetter_of_mem_autoLetters n)
    rw [rank_autoLetters, rank_autoLetters] at hlt
    exact Nat.lt_of_succ_lt_succ hlt
  refine ⟨hrank, ?_⟩
  intro hmn
  -- of two words that are not the same one precedes the other
  rcases trichotomous_of (List.Shortlex (· < ·)) (autoLetters m) (autoLetters n) with h | h | h
  · exact h
  · have hsame := congrArg rank h
    rw [rank_autoLetters, rank_autoLetters] at hsame
    omega
  · have hnm := hrank h
    omega

end Switchboard
