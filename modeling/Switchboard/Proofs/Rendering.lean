import Switchboard.Proofs.Parsing

/-!
# Signatures read back as they are shown

A signature is shown in one canonical form, and reading that form gives the signature back,
whatever names are suggested: the canonical form names every parameter, so that no suggestion is
asked for. What can be shown in this way is `WellNamed`, and everything that is read from a text
under suggested identifiers is.

The proof goes through the grammar. `wording` says what the canonical form says; it is written
by the printer (`wording_written`) and means the signature (`wording_means`), and the parser
accepts exactly what is written and means something.
-/

namespace Switchboard

namespace Signature

open Text

/-- A signature whose names can be told from the text around them: the method has a name, and the
    parameters have different identifiers. -/
structure WellNamed (s : Signature) : Prop where
  name_ne : s.name.toList ≠ []
  name_within : ∀ c ∈ s.name.toList, isNameChar c = true
  identifiers : ∀ p ∈ s.parameters, Ident p.name.toList
  distinct : s.parameterNames.Nodup

/-- A parameter as an item of a list. -/
def itemOf (p : Parameter) : Item := .named p.name.toList p.kind.name.toList

/-- What the canonical form of a signature says. -/
def wording (s : Signature) : Wording :=
  ⟨s.name.toList, s.parameters?.map fun ps => ps.map itemOf, some s.returns.name.toList⟩

/-! ## The printer writes the wording -/

theorem chars_written (p : Parameter) : (itemOf p).Written p.chars :=
  .named (padded_self _) (padded_self _)

theorem Item.Written.append_left {item : Item} {s front : List Char} (h : item.Written s)
    (hf : Blank front) : item.Written (front ++ s) := by
  cases h with
  | bare hs => exact .bare (hs.append_left hf)
  | named hs ht =>
      rw [← List.append_assoc]
      exact .named (hs.append_left hf) ht

theorem ItemsWritten.append_left {items : List Item} {s front : List Char}
    (h : ItemsWritten items s) (hf : Blank front) : ItemsWritten items (front ++ s) := by
  cases h with
  | one hs => exact .one (hs.append_left hf)
  | cons hs ht =>
      rw [← List.append_assoc]
      exact .cons (hs.append_left hf) ht

/-- A kind is shown by a word that stands for it. -/
theorem typeToken_name (k : Kind) : TypeToken k.name.toList k := by
  rw [typeToken_iff]
  cases k <;> decide

theorem parenthesis_not_mem_chars {p : Parameter} (h : Ident p.name.toList) :
    ')' ∉ p.chars := by
  intro hc
  rcases List.mem_append.mp hc with hc | hc
  · exact absurd (h.2 _ hc) (by decide)
  · rcases List.mem_cons.mp hc with hc | hc
    · exact absurd hc (by decide)
    · exact absurd ((typeToken_name p.kind).ident.2 _ hc) (by decide)

/-- What stands between the parentheses is the list of the parameters. -/
theorem exists_listChars {ps : List Parameter} (h : ∀ p ∈ ps, Ident p.name.toList) :
    ∃ s, listChars ps = s ++ [')'] ∧ ListWritten (ps.map itemOf) s ∧ ')' ∉ s := by
  match ps with
  | [] => exact ⟨[], rfl, .blank blank_nil, List.not_mem_nil⟩
  | p :: rest =>
      suffices hitems : ∃ s, listChars (p :: rest) = s ++ [')'] ∧
          ItemsWritten ((p :: rest).map itemOf) s ∧ ')' ∉ s by
        obtain ⟨s, hs, hw, hfree⟩ := hitems
        exact ⟨s, hs, .items hw, hfree⟩
      induction rest generalizing p with
      | nil =>
          exact ⟨p.chars, rfl, .one (chars_written p),
            parenthesis_not_mem_chars (h p (by simp))⟩
      | cons q rest ih =>
          obtain ⟨hp, hrest⟩ := List.forall_mem_cons.mp h
          obtain ⟨s, hs, hw, hfree⟩ := ih q hrest
          -- the blank behind the comma is written in front of the next item
          refine ⟨p.chars ++ ',' :: ([' '] ++ s), ?_, ?_, ?_⟩
          · show p.chars ++ ',' :: ' ' :: listChars (q :: rest) = _
            rw [hs]
            simp
          · exact .cons (chars_written p) (hw.append_left (blank_of_all (by decide)))
          · simp [parenthesis_not_mem_chars hp, hfree]

theorem returns_written (k : Kind) :
    TypeWritten (some k.name.toList) (" -> ".toList ++ k.name.toList) := by
  show TypeWritten _ ([' '] ++ '-' :: '>' :: ([' '] ++ k.name.toList))
  exact .present (blank_of_all (by decide)) ((padded_self _).append_left (blank_of_all (by decide)))

/-- What is rendered of a signature is a way to write its wording. -/
theorem wording_written {s : Signature} (h : s.WellNamed) : s.wording.Written s.chars := by
  obtain ⟨name, parameters?, returns⟩ := s
  obtain ⟨hne, within, identifiers, -⟩ := h
  cases parameters? with
  | none =>
      refine ⟨[], " -> ".toList ++ returns.name.toList, blank_nil, ?_, hne, ?_,
        .plain (returns_written returns)⟩
      · show name.toList ++ [] ++ " -> ".toList ++ returns.name.toList = _
        simp [wording]
      · refine longestPrefix_append_iff.mpr ⟨within, ?_⟩
        intro c hc
        -- the name ends before the blank of the arrow
        obtain rfl : ' ' = c := Option.some.inj hc
        decide
  | some ps =>
      have hps : ∀ p ∈ ps, Ident p.name.toList := identifiers
      obtain ⟨list, hlist, hitems, hfree⟩ := exists_listChars hps
      refine ⟨[], '(' :: (list ++ ')' :: (" -> ".toList ++ returns.name.toList)), blank_nil, ?_,
        hne, ?_, .listed blank_nil hitems hfree (returns_written returns)⟩
      · show name.toList ++ '(' :: listChars ps ++ " -> ".toList ++ returns.name.toList = _
        rw [hlist]
        simp [wording]
      · refine longestPrefix_append_iff.mpr ⟨within, ?_⟩
        intro c hc
        obtain rfl : '(' = c := Option.some.inj hc
        decide

/-! ## The wording means the signature -/

/-- The item of a parameter declares it, whatever the hints are. -/
theorem itemOf_declares (hints : List String) (position : Nat) {p : Parameter}
    (h : Ident p.name.toList) : (itemOf p).Declares hints position p := by
  have hitem : (itemOf p).Declares hints position ⟨String.ofList p.name.toList, p.kind⟩ :=
    .named h (typeToken_name p.kind)
  rwa [String.ofList_toList] at hitem

/-- The items of parameters declare them if the names are distinct. -/
theorem declares_itemOf (hints : List String) {ps : List Parameter}
    (hident : ∀ p ∈ ps, Ident p.name.toList) (hdistinct : (ps.map (·.name)).Nodup) :
    Declares hints (ps.map itemOf) ps := by
  refine ⟨?_, ?_, hdistinct⟩
  · suffices heach : ∀ position, List.Forall₂ (fun item p => item.1.Declares hints item.2 p)
        ((ps.map itemOf).zipIdx position) ps from heach 0
    clear hdistinct
    induction ps with
    | nil => exact fun _ => .nil
    | cons p ps ih =>
        obtain ⟨hp, hps⟩ := List.forall_mem_cons.mp hident
        exact fun position => .cons (itemOf_declares hints position hp) (ih hps (position + 1))
  · rw [List.pairwise_map]
    exact List.pairwise_of_forall fun _ _ _ => rfl

/-- The wording of a signature declares that signature. -/
theorem wording_means {s : Signature} (h : s.WellNamed) (hints : List String) :
    s.wording.Means hints s := by
  obtain ⟨name, parameters?, returns⟩ := s
  obtain ⟨-, -, identifiers, distinct⟩ := h
  refine ⟨String.ofList_toList.symm, ?_, typeToken_name returns⟩
  cases parameters? with
  | none => exact .none
  | some ps => exact .some (declares_itemOf hints identifiers distinct)

/-- The canonical text of a signature is read as that signature. -/
theorem parse_render {s : Signature} (h : s.WellNamed) (hints : List String) :
    parse s.render hints = .ok s := by
  refine (parse_eq_ok_iff _ _ _).mpr ⟨s.wording, ?_, wording_means h hints⟩
  rw [render, String.toList_ofList]
  exact wording_written h

/-! ## Signatures that were read -/

theorem isIdentChar_letter {n : Nat} (h : n < 26) : isIdentChar (letter n) = true := by
  have hall : ∀ n < 26, isIdentChar (letter n) = true := by decide
  exact hall n h

/-- Every name that is made up is an identifier. -/
theorem ident_autoLetters (index : Nat) : Ident (autoLetters index) := by
  induction index using autoLetters.induct with
  | case1 index h =>
      rw [autoLetters, if_pos h]
      refine ⟨List.cons_ne_nil _ _, ?_⟩
      intro c hc
      obtain rfl := List.mem_singleton.mp hc
      exact isIdentChar_letter h
  | case2 index h ih =>
      rw [autoLetters, if_neg h]
      refine ⟨List.append_ne_nil_of_right_ne_nil _ (List.cons_ne_nil _ _), ?_⟩
      intro c hc
      rcases List.mem_append.mp hc with hc | hc
      · exact ih.2 c hc
      · obtain rfl := List.mem_singleton.mp hc
        exact isIdentChar_letter (Nat.mod_lt _ (by decide))

/-- An item declares an identifier or takes the name that is suggested for its position. -/
theorem Item.Declares.ident_or_suggested {hints : List String} {position : Nat} {item : Item}
    {p : Parameter} (hp : item.Declares hints position p) :
    Ident p.name.toList ∨ hints[position]? = some p.name := by
  cases hp with
  | bare =>
      show Ident (suggestedName hints position).toList ∨ _ = some (suggestedName hints position)
      unfold suggestedName
      cases hints[position]? with
      | none =>
          refine Or.inl ?_
          show Ident (String.ofList (autoLetters position)).toList
          rw [String.toList_ofList]
          exact ident_autoLetters position
      | some hint => exact Or.inr rfl
  | named hn =>
      rw [String.toList_ofList]
      exact Or.inl hn

/-- The name of a parameter is an identifier or the hint for its position. -/
theorem Declares.ident_or_suggested {hints : List String} {items : List Item}
    {ps : List Parameter} (hps : Declares hints items ps) {position : Nat} {p : Parameter}
    (hp : ps[position]? = some p) : Ident p.name.toList ∨ hints[position]? = some p.name := by
  obtain ⟨hi, -⟩ := List.getElem?_eq_some_iff.mp hp
  rw [← hps.length_eq] at hi
  exact (hps.getElem? (List.getElem?_eq_getElem hi) hp).ident_or_suggested

/-- If all hints are identifiers, so are all names. -/
theorem Declares.ident {hints : List String} (h : ∀ hint ∈ hints, Ident hint.toList)
    {items : List Item} {ps : List Parameter} (hps : Declares hints items ps) :
    ∀ p ∈ ps, Ident p.name.toList := by
  intro p hp
  obtain ⟨position, hp⟩ := List.mem_iff_getElem?.mp hp
  rcases hps.ident_or_suggested hp with hident | hhint
  · exact hident
  · exact h p.name (List.mem_of_getElem? hhint)

section

variable {text : String} {hints : List String} {s : Signature}

/-- Whatever is suggested, what is read has a name. -/
theorem name_of_parse (h : parse text hints = .ok s) :
    s.name.toList ≠ [] ∧ ∀ c ∈ s.name.toList, isNameChar c = true := by
  obtain ⟨⟨name, items?, type?⟩, ⟨front, tail, -, -, hne, hlong, -⟩, hname, -, -⟩ :=
    (parse_eq_ok_iff _ _ _).mp h
  have hname : s.name = String.ofList name := hname
  rw [hname, String.toList_ofList]
  exact ⟨hne, hlong.within⟩

/-- Whatever is suggested, the parameters that are read are what items declare. -/
theorem declares_of_parse (h : parse text hints = .ok s) :
    ∃ items, Declares hints items s.parameters := by
  obtain ⟨⟨name, items?, type?⟩, -, -, hps, -⟩ := (parse_eq_ok_iff _ _ _).mp h
  obtain ⟨name', parameters?, returns⟩ := s
  cases hps with
  | none => exact ⟨[], .nil, .nil, List.nodup_nil⟩
  | some hdecl => exact ⟨_, hdecl⟩

/-- Whatever is suggested, no two parameters that are read have the same name. -/
theorem distinct_of_parse (h : parse text hints = .ok s) : s.parameterNames.Nodup := by
  obtain ⟨items, hdecl⟩ := declares_of_parse h
  exact hdecl.distinct

/-- Under suggested identifiers only well named signatures are read. -/
theorem wellNamed_of_parse (hhints : ∀ hint ∈ hints, Ident hint.toList)
    (h : parse text hints = .ok s) : s.WellNamed := by
  obtain ⟨hne, within⟩ := name_of_parse h
  obtain ⟨items, hdecl⟩ := declares_of_parse h
  exact ⟨hne, within, hdecl.ident hhints, hdecl.distinct⟩

end

/-- Reading undoes showing. A well named signature is read back from its canonical text whatever
    names are suggested; what was read under suggested identifiers is read back without any; and
    no two well named signatures look alike. -/
theorem parse_undoes_render :
    (∀ s : Signature, s.WellNamed → ∀ hints, parse s.render hints = .ok s) ∧
      (∀ text hints s, (∀ hint ∈ hints, Ident hint.toList) → parse text hints = .ok s →
        parse s.render [] = .ok s) ∧
      ∀ s t : Signature, s.WellNamed → t.WellNamed → s ≠ t → s.render ≠ t.render := by
  refine ⟨fun s hs hints => parse_render hs hints, ?_, ?_⟩
  · intro text hints s hhints h
    exact parse_render (wellNamed_of_parse hhints h) []
  · intro s t hs ht hne hsame
    have hread := parse_render hs []
    rw [hsame, parse_render ht []] at hread
    exact hne (Except.ok.inj hread).symm

/-- A method whose name ends in the character that an arrow begins with, with a parameter. -/
def hyphenated : Signature := ⟨"a.b-", some [⟨"q", .array⟩], .nil⟩

/-- The hyphen stays with the name, with a parameter list behind it and without one, and the name
    suggested for a position does not matter where a name is written. -/
theorem hyphenated_undone :
    (hyphenated.WellNamed ∧ (wildcard "a.b-").WellNamed) ∧
      parse "a.b-(q=Array) -> Nil" ["x"] = .ok hyphenated ∧
      parse "a.b- -> Any" ["x"] = .ok (wildcard "a.b-") ∧
      (Ident "q".toList ∧ parse "a.b- ( list )->none" ["q"] = .ok hyphenated ∧
        parse hyphenated.render [] = .ok hyphenated) ∧
      hyphenated.render ≠ (wildcard "a.b-").render := by
  have hident : Ident "q".toList := isIdent_iff.mp (by decide)
  have hlisted : hyphenated.WellNamed :=
    ⟨by decide, List.all_eq_true.mp (by decide), List.forall_mem_singleton.mpr hident, by decide⟩
  have hplain : (wildcard "a.b-").WellNamed :=
    ⟨by decide, List.all_eq_true.mp (by decide), List.forall_mem_nil _, by decide⟩
  have hread : parse "a.b- ( list )->none" ["q"] = .ok hyphenated := by decide
  obtain ⟨hback, hagain, hdiffer⟩ := parse_undoes_render
  exact ⟨⟨hlisted, hplain⟩, hback hyphenated hlisted ["x"], hback _ hplain ["x"],
    ⟨hident, hread, hagain _ ["q"] _ (List.forall_mem_singleton.mpr hident) hread⟩,
    hdiffer _ _ hlisted hplain (by decide)⟩

end Signature

end Switchboard
