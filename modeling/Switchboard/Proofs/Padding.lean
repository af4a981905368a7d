import Mathlib.Data.List.DropRight
import Mathlib.Data.List.TakeWhile
import Switchboard.Text.Blank

/-!
# Texts with blanks around them

Trimming drops blanks by running over the text from either end. What readers of a grammar want
to say is the other way round: this text is that token with blanks around it. `Padded` says so,
and the lemmas here lead from one view to the other: every text is its own trim, padded, and a
token without blanks inside is recovered from every padding of it.
-/

namespace Switchboard.Text

/-- A text of nothing but blanks, or of nothing at all. -/
def Blank (s : List Char) : Prop := ∀ c ∈ s, isBlank c = true

/-- A text without a single blank. -/
def Solid (s : List Char) : Prop := ∀ c ∈ s, isBlank c = false

/-- A text that is a given core with blanks on both sides. -/
def Padded (core s : List Char) : Prop :=
  ∃ front back, Blank front ∧ Blank back ∧ s = front ++ core ++ back

@[simp] theorem blank_nil : Blank [] := by simp [Blank]

theorem blank_of_all {s : List Char} (h : s.all isBlank = true) : Blank s := List.all_eq_true.mp h

theorem padded_self (s : List Char) : Padded s s :=
  ⟨[], [], blank_nil, blank_nil, by simp⟩

theorem Blank.append {s t : List Char} (hs : Blank s) (ht : Blank t) : Blank (s ++ t) := by
  intro c hc
  rcases List.mem_append.mp hc with h | h
  · exact hs c h
  · exact ht c h

/-- Running to the first character that is no blank either uses up the text or stops there. -/
theorem blank_or_split (s : List Char) :
    Blank s ∨ ∃ front c rest, Blank front ∧ isBlank c = false ∧ s = front ++ c :: rest := by
  induction s with
  | nil => exact Or.inl blank_nil
  | cons c s ih =>
      by_cases hc : isBlank c = true
      · rcases ih with h | ⟨front, d, rest, hf, hd, rfl⟩
        · exact Or.inl (List.forall_mem_cons.mpr ⟨hc, h⟩)
        · exact Or.inr ⟨c :: front, d, rest, List.forall_mem_cons.mpr ⟨hc, hf⟩, hd, rfl⟩
      · exact Or.inr ⟨[], c, s, blank_nil, by simpa using hc, rfl⟩

/-! ## The front end -/

theorem trimStart_of_blank {s : List Char} (h : Blank s) : trimStart s = [] :=
  List.dropWhile_eq_nil_iff.mpr h

/-- Trimming the front stops at the first character that is no blank. -/
theorem trimStart_append_cons {front : List Char} {c : Char} {rest : List Char}
    (hf : Blank front) (hc : isBlank c = false) :
    trimStart (front ++ c :: rest) = c :: rest := by
  rw [trimStart, List.dropWhile_append_of_pos hf, List.dropWhile_cons_of_neg (by simp [hc])]

/-- What is trimmed off the front is blank. -/
theorem exists_trimStart (s : List Char) : ∃ front, Blank front ∧ s = front ++ trimStart s :=
  ⟨s.takeWhile isBlank, fun _ h => List.mem_takeWhile_imp h,
    List.takeWhile_append_dropWhile.symm⟩

/-! ## The back end -/

theorem trimEnd_of_blank {s : List Char} (h : Blank s) : trimEnd s = [] := by
  rw [trimEnd, List.dropWhile_eq_nil_iff.mpr fun c hc => h c (List.mem_reverse.mp hc)]
  rfl

/-- Trimming the back leaves everything up to a character that is no blank alone. -/
theorem trimEnd_append_cons (front : List Char) {c : Char} (rest : List Char)
    (hc : isBlank c = false) : trimEnd (front ++ c :: rest) = front ++ c :: trimEnd rest := by
  simp only [trimEnd, List.reverse_append, List.reverse_cons, List.append_assoc]
  rw [List.dropWhile_append]
  split
  case isTrue h =>
      rw [List.isEmpty_iff.mp h]
      simp [hc]
  case isFalse => simp

/-- A text without blanks is not cut into from behind. -/
theorem trimEnd_solid_append {core : List Char} (h : Solid core) (s : List Char) :
    trimEnd (core ++ s) = core ++ trimEnd s := by
  induction core with
  | nil => rfl
  | cons c core ih =>
      obtain ⟨hc, h⟩ := List.forall_mem_cons.mp h
      rw [List.cons_append, ← List.nil_append (c :: (core ++ s)), trimEnd_append_cons _ _ hc, ih h]
      rfl

/-- What is trimmed off the back is blank. -/
theorem exists_trimEnd (s : List Char) : ∃ back, Blank back ∧ s = trimEnd s ++ back := by
  obtain ⟨front, hf, h⟩ := exists_trimStart s.reverse
  refine ⟨front.reverse, fun c hc => hf c (List.mem_reverse.mp hc), ?_⟩
  rw [trimEnd, ← trimStart, ← List.reverse_append, ← h, List.reverse_reverse]

/-! ## Both ends -/

theorem trim_of_blank {s : List Char} (h : Blank s) : trim s = [] := by
  rw [trim, trimStart_of_blank h]
  rfl

/-- The two ends are trimmed independently of each other. -/
theorem trimStart_trimEnd (s : List Char) : trimStart (trimEnd s) = trim s := by
  rcases blank_or_split s with h | ⟨front, c, rest, hf, hc, rfl⟩
  · rw [trim_of_blank h, trimEnd_of_blank h]
    rfl
  · rw [trim, trimEnd_append_cons _ _ hc, trimStart_append_cons hf hc,
      trimStart_append_cons hf hc, ← List.nil_append (c :: rest), trimEnd_append_cons _ _ hc]
    rfl

/-- Around a character that is no blank the two ends are trimmed apart. -/
theorem trim_append_cons (s : List Char) {c : Char} (t : List Char) (hc : isBlank c = false) :
    trim (s ++ c :: t) = trimStart s ++ c :: trimEnd t := by
  have hstart : trimStart (s ++ c :: t) = trimStart s ++ c :: t := by
    rcases blank_or_split s with h | ⟨front, d, rest, hf, hd, rfl⟩
    · rw [trimStart_append_cons h hc, trimStart_of_blank h, List.nil_append]
    · rw [List.append_assoc, List.cons_append, trimStart_append_cons hf hd,
        trimStart_append_cons hf hd, List.cons_append]
  rw [trim, hstart, trimEnd_append_cons _ _ hc]

/-- A text that was trimmed in front already is trimmed to the same. -/
theorem trim_trimStart (s : List Char) : trim (trimStart s) = trim s := by
  rw [trim, trim, trimStart, trimStart, List.dropWhile_idempotent]

/-- A text that was trimmed behind already is trimmed to the same. -/
theorem trim_trimEnd (s : List Char) : trim (trimEnd s) = trim s := by
  rw [trim, trimStart_trimEnd, trim, trimEnd, trimEnd, List.reverse_reverse,
    List.dropWhile_idempotent]

/-- Every text is its trim with blanks around it. -/
theorem padded_trim (s : List Char) : Padded (trim s) s := by
  obtain ⟨front, hf, h⟩ := exists_trimStart s
  obtain ⟨back, hb, h'⟩ := exists_trimEnd (trimStart s)
  exact ⟨front, back, hf, hb, by rw [List.append_assoc, trim, ← h', ← h]⟩

theorem Padded.append_left {core s front : List Char} (h : Padded core s) (hf : Blank front) :
    Padded core (front ++ s) := by
  obtain ⟨a, b, ha, hb, rfl⟩ := h
  exact ⟨front ++ a, b, hf.append ha, hb, by simp⟩

theorem Padded.append_right {core s back : List Char} (h : Padded core s) (hb : Blank back) :
    Padded core (s ++ back) := by
  obtain ⟨a, b, ha, hb', rfl⟩ := h
  exact ⟨a, b ++ back, ha, hb'.append hb, by simp⟩

/-- A token without blanks stops the trimming at both ends. -/
theorem trim_append_solid {front core : List Char} (hf : Blank front) (hne : core ≠ [])
    (hc : Solid core) (s : List Char) : trim (front ++ (core ++ s)) = core ++ trimEnd s := by
  cases core with
  | nil => exact absurd rfl hne
  | cons c core =>
      have hd : isBlank c = false := hc c List.mem_cons_self
      rw [List.cons_append, trim, trimStart_append_cons hf hd, ← List.cons_append,
        trimEnd_solid_append hc]

/-- A token without blanks is recovered from every padding of it. -/
theorem Padded.trim_eq {core s : List Char} (h : Padded core s) (hc : Solid core) :
    trim s = core := by
  obtain ⟨front, back, hf, hb, rfl⟩ := h
  by_cases hne : core = []
  · rw [hne, List.append_nil, trim_of_blank (hf.append hb)]
  · rw [List.append_assoc, trim_append_solid hf hne hc, trimEnd_of_blank hb, List.append_nil]

/-- Blanks in front of a text are trimmed away. -/
theorem trim_blank_append {front : List Char} (hf : Blank front) (s : List Char) :
    trim (front ++ s) = trim s := by
  rw [trim, trim, trimStart, trimStart, List.dropWhile_append_of_pos hf]

theorem trim_append_blank {back : List Char} (s : List Char) (hb : Blank back) :
    trim (s ++ back) = trim s := by
  have hrev : ∀ c ∈ back.reverse, isBlank c = true := fun c hc => hb c (List.mem_reverse.mp hc)
  rw [← trimStart_trimEnd, ← trimStart_trimEnd s, trimEnd, trimEnd, List.reverse_append,
    List.dropWhile_append_of_pos hrev]

/-- A text and its paddings are trimmed to the same. -/
theorem Padded.trim_eq_trim {core s : List Char} (h : Padded core s) : trim s = trim core := by
  obtain ⟨front, back, hf, hb, rfl⟩ := h
  rw [trim_append_blank _ hb, trim_blank_append hf]

/-- Only blanks are trimmed away. -/
theorem mem_trim_iff {c : Char} (hc : isBlank c = false) (s : List Char) :
    c ∈ trim s ↔ c ∈ s := by
  obtain ⟨front, back, hf, hb, hs⟩ := padded_trim s
  constructor
  · intro h
    rw [hs]
    simp [h]
  · intro h
    rw [hs] at h
    rcases List.mem_append.mp h with h | h
    · rcases List.mem_append.mp h with h | h
      · exact absurd (hf c h) (by simp [hc])
      · exact h
    · exact absurd (hb c h) (by simp [hc])

/-- A text of which trimming leaves nothing is blank. -/
theorem blank_of_trim_eq_nil {s : List Char} (h : trim s = []) : Blank s := by
  obtain ⟨front, back, hf, hb, hs⟩ := padded_trim s
  rw [hs, h, List.append_nil]
  exact hf.append hb

end Switchboard.Text
