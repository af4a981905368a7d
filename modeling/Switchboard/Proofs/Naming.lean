import Switchboard.Proofs.Rendering

/-!
# Where the names in a signature come from

A parameter has the name that is written for it, or the name that is suggested
for its position, or one of the automatic sequence. A written name has to be an
identifier and an automatic one is, but a suggested name is taken as it is: no
more is asked of it than that no earlier parameter has it.

So what is read under suggestions is `WellNamed` up to the suggested names.
The suggestions that keep it so are those of which every one that can be taken
is an identifier, and a suggestion can be taken exactly if it repeats none in
front of it: an item may ask for the name of its position only if all items in
front of it do.
-/

namespace Switchboard.Signature

open Text

variable {hints : List String}

/-! ## Suggestions that are taken -/

/-- While there are hints, the name suggested is the hint. -/
theorem suggestedName_of_lt {position : Nat} (h : position < hints.length) :
    suggestedName hints position = hints[position] := by
  rw [suggestedName, List.getElem?_eq_getElem h, Option.getD_some]

theorem Item.Declares.name_of_unnamed {position : Nat} {item : Item} {p : Parameter}
    (h : item.Declares hints position p) (hunnamed : ¬ item.isNamed = true) :
    p.name = suggestedName hints position := by
  cases h with
  | bare => rfl
  | named => exact absurd rfl hunnamed

/-- A parameter without a name of its own stands behind others without names, so all of them have
    been given the suggested ones. -/
theorem Declares.take_eq {items : List Item} {ps : List Parameter} (h : Declares hints items ps)
    {position : Nat} {type : List Char} (hbare : items[position]? = some (.bare type))
    (hhints : position < hints.length) :
    (ps.map (·.name)).take (position + 1) = hints.take (position + 1) := by
  obtain ⟨hposition, hitem⟩ := List.getElem?_eq_some_iff.mp hbare
  have hlength := h.length_eq
  refine List.ext_getElem (by simp; omega) ?_
  intro i hi _
  rw [List.length_take, List.length_map] at hi
  have hitems : i < items.length := by omega
  have hps : i < ps.length := by omega
  -- a named item here would be followed by a named one at the position
  have hunnamed : ¬ items[i].isNamed = true := by
    intro hnamed
    have hlater : items[position].isNamed = true := by
      rcases (show i ≤ position by omega).lt_or_eq with hlt | rfl
      · exact List.pairwise_iff_getElem.mp h.ordered i position hitems hposition hlt hnamed
      · exact hnamed
    rw [hitem] at hlater
    exact nomatch hlater
  have hdeclares := h.getElem? (List.getElem?_eq_getElem hitems) (List.getElem?_eq_getElem hps)
  rw [List.getElem_take, List.getElem_take, List.getElem_map, hdeclares.name_of_unnamed hunnamed,
    suggestedName_of_lt]

/-- A parameter that has no identifier for a name has been given one of the suggestions, and that
    one repeats none in front of it. -/
theorem Declares.ident_or_taken {items : List Item} {ps : List Parameter}
    (h : Declares hints items ps) {position : Nat} {p : Parameter} (hp : ps[position]? = some p) :
    Ident p.name.toList
      ∨ hints[position]? = some p.name ∧ (hints.take (position + 1)).Nodup := by
  obtain ⟨hposition, -⟩ := List.getElem?_eq_some_iff.mp hp
  rw [← h.length_eq] at hposition
  have hitem := List.getElem?_eq_getElem hposition
  have hdeclares := h.getElem? hitem hp
  rcases hdeclares.ident_or_suggested with hident | hhint
  · exact Or.inl hident
  · cases hat : items[position] with
    | named name type =>
        rw [hat] at hdeclares
        cases hdeclares with
        | named hident =>
            rw [String.toList_ofList]
            exact Or.inl hident
    | bare type =>
        -- whatever stands in front of a bare type is bare too, and so named by its hint
        obtain ⟨hlt, -⟩ := List.getElem?_eq_some_iff.mp hhint
        rw [hat] at hitem
        refine Or.inr ⟨hhint, ?_⟩
        rw [← h.take_eq hitem hlt]
        exact h.distinct.sublist (List.take_sublist _ _)

/-! ## Taking a suggestion -/

/-- A list of items without names. -/
theorem exists_bare_list (count : Nat) :
    ∃ s, ItemsWritten (List.replicate (count + 1) (.bare "any".toList)) s ∧ ')' ∉ s := by
  induction count with
  | zero => exact ⟨"any".toList, .one (.bare (padded_self _)), by decide⟩
  | succ count ih =>
      obtain ⟨s, hs, hfree⟩ := ih
      refine ⟨"any".toList ++ ',' :: s, .cons (.bare (padded_self _)) hs, ?_⟩
      simp [hfree]

/-- Items without names declare parameters of the suggested names. -/
theorem declares_replicate {count : Nat} (hlength : count ≤ hints.length)
    (hdistinct : (hints.take count).Nodup) :
    Declares hints (List.replicate count (.bare "any".toList))
      ((hints.take count).map (⟨·, .any⟩)) where
  each := by
    rw [List.forall₂_iff_get]
    refine ⟨by simp [hlength], ?_⟩
    intro i _ hi
    have hcount : i < hints.length := by
      rw [List.length_map, List.length_take] at hi
      omega
    have hitem : (Item.bare "any".toList).Declares hints i ⟨suggestedName hints i, .any⟩ :=
      .bare (typeToken_iff.mpr (by decide))
    rw [suggestedName_of_lt hcount] at hitem
    simpa using hitem
  ordered := by
    refine List.pairwise_replicate.mpr (Or.inr ?_)
    exact nofun
  distinct := by
    simpa [List.map_map, Function.comp_def] using hdistinct

/-- Any distinct suggestions are the names in some signature. -/
theorem exists_parse_of_suggested {count : Nat} (hlength : count < hints.length)
    (hdistinct : (hints.take (count + 1)).Nodup) :
    ∃ text, parse text hints = .ok ⟨"m", some ((hints.take (count + 1)).map (⟨·, .any⟩)), .any⟩ := by
  obtain ⟨list, hlist, hfree⟩ := exists_bare_list count
  refine ⟨String.ofList ('m' :: '(' :: (list ++ [')'])), (parse_eq_ok_iff _ _ _).mpr
    ⟨⟨['m'], some (List.replicate (count + 1) (.bare "any".toList)), none⟩, ?_, ?_⟩⟩
  · refine ⟨[], '(' :: (list ++ [')']), blank_nil, String.toList_ofList, List.cons_ne_nil _ _, ?_,
      .listed blank_nil (.items hlist) hfree (.absent blank_nil)⟩
    refine longestPrefix_append_iff.mpr ⟨?_, ?_⟩
    · intro c hc
      obtain rfl := List.mem_singleton.mp hc
      decide
    · intro c hc
      obtain rfl : '(' = c := Option.some.inj hc
      decide
  · exact ⟨rfl, .some (declares_replicate hlength hdistinct), rfl⟩

/-! ## Names -/

/-- Names of what is read. Whatever is suggested, a signature that is read has a name, no two of its
    parameters have the same one, and each has an identifier or what is suggested for its position.
    So only well named signatures are read exactly if the suggestions are identifiers up to the
    first that repeats another. -/
theorem names_as_suggested (hints : List String) :
    (∀ text s, parse text hints = .ok s →
        (s.name.toList ≠ [] ∧ ∀ c ∈ s.name.toList, isNameChar c = true)
          ∧ s.parameterNames.Nodup
          ∧ ∀ (position : Nat) (name : String), s.parameterNames[position]? = some name →
            Ident name.toList ∨ hints[position]? = some name)
      ∧ ((∀ text s, parse text hints = .ok s → s.WellNamed)
        ↔ ∀ (position : Nat) (hint : String), hints[position]? = some hint →
          (hints.take (position + 1)).Nodup → Ident hint.toList) := by
  refine ⟨?_, ?_, ?_⟩
  · intro text s hread
    refine ⟨name_of_parse hread, distinct_of_parse hread, ?_⟩
    intro position name hname
    obtain ⟨items, hdecl⟩ := declares_of_parse hread
    rw [parameterNames, List.getElem?_map] at hname
    obtain ⟨p, hp, rfl⟩ := Option.map_eq_some_iff.mp hname
    exact hdecl.ident_or_suggested hp
  · intro hall position hint hhint hdistinct
    obtain ⟨hlt, -⟩ := List.getElem?_eq_some_iff.mp hhint
    -- a hint that is reached is the name in some signature
    obtain ⟨text, hread⟩ := exists_parse_of_suggested hlt hdistinct
    have hmem : hint ∈ hints.take (position + 1) := by
      refine List.mem_of_getElem? (i := position) ?_
      rw [List.getElem?_take_of_lt (Nat.lt_succ_self position)]
      exact hhint
    exact (hall text _ hread).identifiers ⟨hint, .any⟩ (List.mem_map.mpr ⟨hint, hmem, rfl⟩)
  · intro hident text s hread
    obtain ⟨hne, within⟩ := name_of_parse hread
    obtain ⟨items, hdecl⟩ := declares_of_parse hread
    refine ⟨hne, within, ?_, hdecl.distinct⟩
    intro p hp
    obtain ⟨position, hp⟩ := List.mem_iff_getElem?.mp hp
    rcases hdecl.ident_or_taken hp with hp' | ⟨hhint, hdistinct⟩
    · exact hp'
    · exact hident position p.name hhint hdistinct

/-- The last suggestion is no identifier, but the one in front of it repeats another, so that no
    text can ask for the last one. -/
theorem repeated_suggestion_in_the_way :
    (∀ text s, parse text ["w", "w", ""] = .ok s → s.WellNamed)
      ∧ parse "m(num, b=str)" ["w", "w", ""] = .ok ⟨"m", some [⟨"w", .number⟩, ⟨"b", .string⟩], .any⟩
      ∧ parse "m(num, str, str)" ["w", "w", ""] = .error (.duplicateParameter "w") := by
  obtain ⟨-, hwell⟩ := names_as_suggested ["w", "w", ""]
  refine ⟨hwell.mpr ?_, by decide, by decide⟩
  intro position hint hhint hdistinct
  match position with
  | 0 =>
      obtain rfl : "w" = hint := Option.some.inj hhint
      exact isIdent_iff.mp (by decide)
  | 1 => exact absurd hdistinct (by decide)
  | 2 => exact absurd hdistinct (by decide)
  | position + 3 => exact nomatch hhint

/-- The empty text is taken for a name when it is suggested, and what comes of it can be shown but
    not read back. -/
theorem empty_name_suggested :
    parse "m(str)" [""] = .ok ⟨"m", some [⟨"", .string⟩], .any⟩
      ∧ ¬ (Signature.mk "m" (some [⟨"", .string⟩]) .any).WellNamed
      ∧ (Signature.mk "m" (some [⟨"", .string⟩]) .any).render = "m(=String) -> Any"
      ∧ parse "m(=String) -> Any" [] = .error (.invalidParameterName "=String") := by
  refine ⟨by decide, ?_, by decide, by decide⟩
  intro h
  have hident := h.identifiers ⟨"", .string⟩ (List.mem_singleton_self _)
  exact hident.1 rfl

end Switchboard.Signature
