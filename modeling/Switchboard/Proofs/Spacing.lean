import Switchboard.Proofs.Cells

/-!
# Blanks in signatures

How many blanks stand between the tokens of a signature does not matter, with one exception: an
arrow right behind the name of a method. The arrow begins with a character that names may hold
too, so without a blank in between the name takes it, and what is left is no result type.

`same_outcome_iff` says that this is the only exception: two texts of the same tokens come to the
same, unless the arrow touches the name in one of them alone and the tokens are accepted at all.
-/

namespace Switchboard.Signature

open Text

/-! ## Spelling -/

/-- How everything behind the name is spelled. Unlike in the grammar the list may hold closing
    parentheses of its own. -/
inductive TailSpelled : Option (List Item) → Option (List Char) → List Char → Prop
  | plain {type? : Option (List Char)} {s : List Char} (hs : TypeWritten type? s) :
    TailSpelled none type? s
  | listed {items : List Item} {type? : Option (List Char)} {gap s t : List Char}
    (hg : Blank gap) (hs : ListWritten items s) (ht : TypeWritten type? t) :
    TailSpelled (some items) type? (gap ++ '(' :: (s ++ ')' :: t))

/-- A text that spells tokens, with any blanks around them. Whether a reader would cut it into the
    same tokens is another matter. -/
def Wording.Spelled (w : Wording) (text : List Char) : Prop :=
  ∃ front tail, Blank front ∧ text = front ++ (w.name ++ tail) ∧
    TailSpelled w.items? w.type? tail

/-- A text in which the arrow stands right behind the name. -/
def Wording.Glued (w : Wording) (text : List Char) : Prop :=
  w.items? = none ∧ ∃ front rest, Blank front ∧ text = front ++ (w.name ++ '-' :: '>' :: rest)

/-- Behind the name there is either no character of a name or an arrow. -/
theorem TailSpelled.head {items? : Option (List Item)} {type? : Option (List Char)}
    {tail : List Char} (h : TailSpelled items? type? tail) :
    (∀ c, tail.head? = some c → isNameChar c = false) ∨
      items? = none ∧ ∃ rest, tail = '-' :: '>' :: rest := by
  have hblank {c : Char} {gap : List Char} (hg : Blank (c :: gap)) : isNameChar c = false := by
    by_contra hc
    have hb := isBlank_of_isNameChar (Bool.not_eq_false _ ▸ hc)
    rw [hg c List.mem_cons_self] at hb
    exact nomatch hb
  cases h with
  | plain hs =>
      cases hs with
      | absent hg =>
          left
          intro c hc
          cases tail with
          | nil => exact nomatch hc
          | cons d gap => exact Option.some.inj hc ▸ hblank hg
      | @present gap type s hg hs =>
          cases gap with
          | nil => exact Or.inr ⟨rfl, s, rfl⟩
          | cons d gap => exact Or.inl fun c hc => Option.some.inj hc ▸ hblank hg
  | @listed items type? gap s t hg hs ht =>
      left
      intro c hc
      cases gap with
      | nil =>
          obtain rfl : '(' = c := Option.some.inj hc
          decide
      | cons d gap => exact Option.some.inj hc ▸ hblank hg

/-! ## Behind the name -/

/-- What a result type comes to. -/
def resultOf : Option (List Char) → Except Defect Kind
  | none => .ok .any
  | some type => returnsOfRest ('-' :: '>' :: type)

/-- What is read behind an arrow is what is there apart from the blanks around it. -/
theorem returnsOfRest_arrow {s t : List Char} (h : trim s = trim t) :
    returnsOfRest ('-' :: '>' :: s) = returnsOfRest ('-' :: '>' :: t) := by
  simp only [returnsOfRest, h]

/-- However a result type is written, it comes to the same. -/
theorem TypeWritten.returns_eq {type? : Option (List Char)} {s : List Char}
    (h : TypeWritten type? s) : returnsOfRest (trimStart (Text.trimEnd s)) = resultOf type? := by
  cases h with
  | absent hg =>
      rw [trimEnd_of_blank hg]
      rfl
  | @present gap type s hg hs =>
      have hend : Text.trimEnd ('>' :: s) = '>' :: Text.trimEnd s :=
        trimEnd_append_cons [] s (by decide)
      rw [trimEnd_append_cons _ _ (by decide), hend, trimStart_append_cons hg (by decide)]
      refine returnsOfRest_arrow ?_
      rw [trim_trimEnd, hs.trim_eq_trim]

/-- No result type holds a closing parenthesis. -/
theorem returnsOfRest_parenthesis {s : List Char} (h : ')' ∈ s) :
    ∃ d, returnsOfRest (trimStart s) = .error d := by
  cases hread : returnsOfRest (trimStart s) with
  | error d => exact ⟨d, rfl⟩
  | ok k =>
      obtain ⟨type?, hs, hk⟩ := returnsOfRest_iff.mp hread
      cases hs with
      | absent hg => exact absurd (hg _ h) (by decide)
      | @present gap type s hg hs =>
          have htype : TypeToken type k := hk
          have hs : ')' ∉ s := htype.ident.not_mem_of_padded hs (by decide) (by decide)
          rcases List.mem_append.mp h with h | h
          · exact absurd (hg _ h) (by decide)
          · exact absurd h (by simp [hs])

/-- Without an opening parenthesis there is no list. -/
theorem partsOfTail_of_no_list {hints : List String} {rest : List Char}
    (h : rest.head? ≠ some '(') :
    partsOfTail hints rest = (returnsOfRest rest).map fun k => (none, k) := by
  rw [partsOfTail.eq_2]
  · cases returnsOfRest rest <;> rfl
  · rintro inner rfl
    exact h rfl

/-- However the tail without a list is written, it comes to the same. -/
theorem partsOfTail_plain {hints : List String} {type? : Option (List Char)} {s : List Char}
    (h : TypeWritten type? s) :
    partsOfTail hints (trimStart (Text.trimEnd s))
      = (resultOf type?).map fun k => (none, k) := by
  rw [← h.returns_eq]
  refine partsOfTail_of_no_list ?_
  cases h with
  | absent hg =>
      rw [trimEnd_of_blank hg]
      exact nofun
  | present hg hs =>
      rw [trimEnd_append_cons _ _ (by decide), trimStart_append_cons hg (by decide)]
      exact fun h => absurd (Option.some.inj h) (by decide)

/-- A list reaches to the first closing parenthesis, and the result type stands behind it. -/
theorem partsOfTail_listed {hints : List String} {type? : Option (List Char)}
    {gap s t : List Char} (hg : Blank gap) (ht : TypeWritten type? t) (hs : ')' ∉ s) :
    partsOfTail hints (trimStart (Text.trimEnd (gap ++ '(' :: (s ++ ')' :: t))))
      = parametersOfList hints s >>= fun ps => (resultOf type?).map fun k => (some ps, k) := by
  rw [trimEnd_append_cons _ _ (by decide), trimEnd_append_cons _ _ (by decide),
    trimStart_append_cons hg (by decide), partsOfTail, splitFirst?_append _ hs, ← ht.returns_eq]
  dsimp only
  refine congrArg _ (funext ?_)
  intro ps
  cases returnsOfRest (trimStart (Text.trimEnd t)) <;> rfl

/-- A list that holds a closing parenthesis ends too early: another one is left behind it. -/
theorem partsOfTail_overfull {hints : List String} {gap s t : List Char} (hg : Blank gap)
    (hs : ')' ∈ s) :
    (partsOfTail hints (trimStart (Text.trimEnd (gap ++ '(' :: (s ++ ')' :: t))))).toOption
      = none := by
  obtain ⟨a, b, rfl, ha⟩ := List.eq_append_cons_of_mem hs
  have hmore : ')' ∈ b ++ ')' :: Text.trimEnd t := by simp
  obtain ⟨d, hd⟩ := returnsOfRest_parenthesis hmore
  rw [trimEnd_append_cons _ _ (by decide), trimEnd_append_cons _ _ (by decide),
    trimStart_append_cons hg (by decide), List.append_assoc, List.cons_append, partsOfTail,
    splitFirst?_append _ ha]
  dsimp only
  rw [toOption_bind, hd]
  cases parametersOfList hints a <;> rfl

/-- However the tokens behind the name are spaced, they come to the same. -/
theorem TailSpelled.toOption_eq {hints : List String} {items? : Option (List Item)}
    {type? : Option (List Char)} {s t : List Char} (hs : TailSpelled items? type? s)
    (ht : TailSpelled items? type? t) :
    (partsOfTail hints (trimStart (Text.trimEnd s))).toOption
      = (partsOfTail hints (trimStart (Text.trimEnd t))).toOption := by
  cases hs with
  | plain hs =>
      cases ht with
      | plain ht => rw [partsOfTail_plain hs, partsOfTail_plain ht]
  | @listed items type? gap s s' hg hs hs' =>
      cases ht with
      | @listed _ _ gap' t t' hg' ht ht' =>
          have hcells := hs.cells_eq ht
          have hclose : ')' ∈ s ↔ ')' ∈ t := by
            rw [← mem_cells_iff (by decide) (by decide) (by decide) s, hcells,
              mem_cells_iff (by decide) (by decide) (by decide) t]
          by_cases hfree : ')' ∈ s
          · rw [partsOfTail_overfull hg hfree, partsOfTail_overfull hg' (hclose.mp hfree)]
          · rw [partsOfTail_listed hg hs' hfree,
              partsOfTail_listed hg' ht' fun h => hfree (hclose.mpr h), toOption_bind,
              toOption_bind, parametersOfList_congr hcells]

/-! ## Whole texts -/

/-- A text with a name is read as the name and what follows it. -/
theorem parse_of_name {text : String} {hints : List String} {front name tail : List Char}
    (htext : text.toList = front ++ (name ++ tail)) (hf : Blank front) (hne : name ≠ [])
    (within : ∀ c ∈ name, isNameChar c = true)
    (stop : ∀ c, tail.head? = some c → isNameChar c = false) :
    parse text hints = (partsOfTail hints (trimStart (Text.trimEnd tail))).map fun parts =>
      ⟨String.ofList name, parts.1, parts.2⟩ := by
  obtain ⟨htake, hdrop⟩ :=
    takeWhile_dropWhile_of_written hf hne (longestPrefix_append_iff.mpr ⟨within, stop⟩)
  rw [parse_eq_partsOfTail, htext, htake, hdrop, if_neg (by simpa using hne)]

/-- The dash of an arrow right behind a name goes to the name, and a result type does not begin
    with what is left of the arrow. -/
theorem parse_of_glued {w : Wording} {text : String} {hints : List String}
    (hname : ∀ c ∈ w.name, isNameChar c = true) (h : w.Glued text.toList) :
    (parse text hints).toOption = none := by
  obtain ⟨-, front, rest, hf, htext⟩ := h
  have htext : text.toList = front ++ ((w.name ++ ['-']) ++ '>' :: rest) := by
    rw [htext]
    simp
  have within : ∀ c ∈ w.name ++ ['-'], isNameChar c = true := by
    intro c hc
    rcases List.mem_append.mp hc with hc | hc
    · exact hname c hc
    · obtain rfl := List.mem_singleton.mp hc
      decide
  have stop : ∀ c, ('>' :: rest).head? = some c → isNameChar c = false := by
    intro c hc
    obtain rfl : '>' = c := Option.some.inj hc
    decide
  have hend : Text.trimEnd ('>' :: rest) = '>' :: Text.trimEnd rest :=
    trimEnd_append_cons [] rest (by decide)
  have hstart : trimStart ('>' :: Text.trimEnd rest) = '>' :: Text.trimEnd rest :=
    trimStart_append_cons blank_nil (by decide)
  rw [parse_of_name htext hf (by simp) within stop, hend, hstart, partsOfTail_of_no_list (by simp)]
  rfl

/-- Without a name nothing is accepted. -/
theorem parse_of_no_name {w : Wording} {text : String} {hints : List String}
    (hname : w.name = []) (h : w.Spelled text.toList) : (parse text hints).toOption = none := by
  obtain ⟨⟨name, items?, type?⟩, front, tail, hf, htext, htail⟩ := w, h
  obtain rfl : name = [] := hname
  have hjoined : text.toList = front ++ tail := htext
  have hmissing (h : (trim text.toList).takeWhile isNameChar = []) :
      (parse text hints).toOption = none := by
    rw [parse_eq_partsOfTail, h]
    rfl
  cases htail with
  | plain hs =>
      cases hs with
      | absent hg => exact hmissing (by rw [hjoined, trim_of_blank (hf.append hg)]; rfl)
      | @present gap type s hg hs =>
          -- the arrow itself is taken for the beginning of a name
          refine parse_of_glued (w := ⟨[], none, some type⟩) (List.forall_mem_nil _)
            ⟨rfl, front ++ gap, s, hf.append hg, ?_⟩
          rw [hjoined]
          simp
  | @listed items type? gap s t hg hs ht =>
      refine hmissing ?_
      have hopen : text.toList = (front ++ gap) ++ '(' :: (s ++ ')' :: t) := by
        rw [hjoined]
        simp
      rw [hopen, trim_append_cons _ _ (by decide), trimStart_of_blank (hf.append hg)]
      rfl

/-- Apart from a glued arrow, the blanks in a text do not matter. -/
theorem toOption_eq_of_apart {w : Wording} {s t : String} {hints : List String}
    (hname : ∀ c ∈ w.name, isNameChar c = true) (hne : w.name ≠ []) (hs : w.Spelled s.toList)
    (ht : w.Spelled t.toList) (hs' : ¬ w.Glued s.toList) (ht' : ¬ w.Glued t.toList) :
    (parse s hints).toOption = (parse t hints).toOption := by
  -- without an arrow right behind it the name ends where it should
  have hread {u : String} (hu : w.Spelled u.toList) (hu' : ¬ w.Glued u.toList) :
      ∃ tail, TailSpelled w.items? w.type? tail ∧
        parse u hints = (partsOfTail hints (trimStart (Text.trimEnd tail))).map fun parts =>
          ⟨String.ofList w.name, parts.1, parts.2⟩ := by
    obtain ⟨front, tail, hf, htext, htail⟩ := hu
    refine ⟨tail, htail, parse_of_name htext hf hne hname ?_⟩
    rcases htail.head with stop | ⟨hitems, rest, rfl⟩
    · exact stop
    · exact absurd ⟨hitems, front, rest, hf, htext⟩ hu'
  obtain ⟨tail, htail, hs⟩ := hread hs hs'
  obtain ⟨tail', htail', ht⟩ := hread ht ht'
  have hmap {α β : Type} (x : Except Defect α) (f : α → β) :
      (x.map f).toOption = x.toOption.map f := by
    cases x <;> rfl
  rw [hs, ht, hmap, hmap, htail.toOption_eq htail']

/-- Two texts of the same tokens have the same outcome, whatever the blanks between the tokens,
    exactly if the arrow stands right behind the name in both or in neither, or no text of these
    tokens is accepted at all. -/
theorem same_outcome_iff {w : Wording} (hname : ∀ c ∈ w.name, isNameChar c = true)
    {s t : String} (hs : w.Spelled s.toList) (ht : w.Spelled t.toList) (hints : List String) :
    (parse s hints).toOption = (parse t hints).toOption ↔
      ((w.Glued s.toList ↔ w.Glued t.toList) ∨
        ∀ u : String, w.Spelled u.toList → (parse u hints).toOption = none) := by
  by_cases hne : w.name = []
  · have hnone (u : String) (hu : w.Spelled u.toList) : (parse u hints).toOption = none :=
      parse_of_no_name hne hu
    rw [hnone s hs, hnone t ht]
    exact ⟨fun _ => Or.inr hnone, fun _ => rfl⟩
  · -- if a glued text and one that is not come to the same, that is to nothing, so do all others
    have hall {u v : String} (hu : w.Glued u.toList) (hv : w.Spelled v.toList)
        (hv' : ¬ w.Glued v.toList)
        (h : (parse u hints).toOption = (parse v hints).toOption) :
        ∀ x : String, w.Spelled x.toList → (parse x hints).toOption = none := by
      intro x hx
      by_cases hx' : w.Glued x.toList
      · exact parse_of_glued hname hx'
      · rw [toOption_eq_of_apart hname hne hx hv hx' hv', ← h, parse_of_glued hname hu]
    constructor
    · intro h
      by_cases hs' : w.Glued s.toList
      · by_cases ht' : w.Glued t.toList
        · exact Or.inl ⟨fun _ => ht', fun _ => hs'⟩
        · exact Or.inr (hall hs' ht ht' h)
      · by_cases ht' : w.Glued t.toList
        · exact Or.inr (hall ht' hs hs' h.symm)
        · exact Or.inl ⟨fun h => absurd h hs', fun h => absurd h ht'⟩
    · rintro (hsame | hnone)
      · by_cases hs' : w.Glued s.toList
        · rw [parse_of_glued hname hs', parse_of_glued hname (hsame.mp hs')]
        · exact toOption_eq_of_apart hname hne hs ht hs' fun h => hs' (hsame.mpr h)
      · rw [hnone s hs, hnone t ht]

/-- The name `m`, a parameter `a` of type `int`, and the result type `nil`. -/
def listedWording : Wording := ⟨['m'], some [.named ['a'] "int".toList], some "nil".toList⟩

/-- The name `m` and the result type `nil`. -/
def plainWording : Wording := ⟨['m'], none, some "nil".toList⟩

theorem nil_written (gap : List Char) (hg : Blank gap) :
    TypeWritten (some "nil".toList) (gap ++ '-' :: '>' :: "nil".toList) :=
  .present hg (padded_self _)

/-- With a parameter list the arrow is away from the name, so that all blanks may go. -/
theorem listed_same_outcome :
    (∀ c ∈ listedWording.name, isNameChar c = true) ∧
      listedWording.Spelled "m ( a = int ) ->nil".toList ∧
      listedWording.Spelled "m(a=int)->nil".toList ∧
      (parse "m ( a = int ) ->nil" []).toOption = (parse "m(a=int)->nil" []).toOption := by
  have hname : ∀ c ∈ listedWording.name, isNameChar c = true :=
    List.all_eq_true.mp (by decide)
  have hgap : Blank [' '] := blank_of_all (by decide)
  have hwide : listedWording.Spelled "m ( a = int ) ->nil".toList := by
    refine ⟨[], [' '] ++ '(' :: (([' ', 'a', ' '] ++ '=' :: " int ".toList) ++ ')' ::
      ([' '] ++ '-' :: '>' :: "nil".toList)), blank_nil, rfl, ?_⟩
    refine .listed hgap (.items (.one (.named ?_ ?_))) (nil_written _ hgap)
    · exact ⟨[' '], [' '], hgap, hgap, rfl⟩
    · exact ⟨[' '], [' '], hgap, hgap, rfl⟩
  have htight : listedWording.Spelled "m(a=int)->nil".toList := by
    refine ⟨[], [] ++ '(' :: ((['a'] ++ '=' :: "int".toList) ++ ')' ::
      ([] ++ '-' :: '>' :: "nil".toList)), blank_nil, rfl, ?_⟩
    exact .listed blank_nil (.items (.one (.named (padded_self _) (padded_self _))))
      (nil_written [] blank_nil)
  have hapart (text : List Char) : ¬ listedWording.Glued text := fun h => nomatch h.1
  exact ⟨hname, hwide, htight, (same_outcome_iff hname hwide htight []).mpr
    (Or.inl ⟨fun h => absurd h (hapart _), fun h => absurd h (hapart _)⟩)⟩

/-- Without a parameter list the blank in front of the arrow may not go: the same tokens are a
    signature with it and none without. -/
theorem blank_before_arrow_matters :
    (∀ c ∈ plainWording.name, isNameChar c = true) ∧ plainWording.Spelled "m ->nil".toList ∧
      plainWording.Spelled "m->nil".toList ∧ parse "m ->nil" [] = .ok ⟨"m", none, .nil⟩ ∧
      parse "m->nil" [] = .error (.unexpectedInput ">nil") := by
  refine ⟨List.all_eq_true.mp (by decide),
    ⟨[], _, blank_nil, rfl, .plain (nil_written [' '] ?_)⟩,
    ⟨[], _, blank_nil, rfl, .plain (nil_written [] blank_nil)⟩, by decide, by decide⟩
  exact blank_of_all (by decide)

end Switchboard.Signature
