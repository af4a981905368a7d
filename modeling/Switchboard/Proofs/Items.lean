import Switchboard.Proofs.Grammar
import Switchboard.Proofs.Groundwork

/-!
# Reading a parameter list

What the parser accepts between the parentheses, in terms of the grammar. The list is cut at its
commas, each item is read by itself, and the loop over the items carries two things along,
whether a name has been seen and which parameters were read. `Continues` says what they come to
for the items that are left; one item passes it on (`continues_cons_iff`), and so the loop
accepts what continues its start (`parametersOfItems_iff`).
-/

namespace Switchboard.Signature

open Text

/-! ## Splitting -/

/-- The first occurrence splits a text into what has none and the rest. -/
theorem splitFirst?_append {sep : Char} {front : List Char} (back : List Char)
    (h : sep ∉ front) : splitFirst? sep (front ++ sep :: back) = some (front, back) := by
  induction front with
  | nil => rw [List.nil_append, splitFirst?, if_pos rfl]
  | cons c front ih =>
      obtain ⟨hc, h⟩ := List.ne_and_not_mem_of_not_mem_cons h
      rw [List.cons_append, splitFirst?, if_neg (Ne.symm hc), ih h]
      rfl

theorem splitFirst?_of_not_mem {sep : Char} {s : List Char} (h : sep ∉ s) :
    splitFirst? sep s = none := by
  induction s with
  | nil => rfl
  | cons c s ih =>
      obtain ⟨hc, h⟩ := List.ne_and_not_mem_of_not_mem_cons h
      rw [splitFirst?, if_neg (Ne.symm hc), ih h]
      rfl

/-- A text is split at the first separator. -/
theorem eq_of_splitFirst?_eq_some {sep : Char} {s front back : List Char}
    (h : splitFirst? sep s = some (front, back)) : s = front ++ sep :: back ∧ sep ∉ front := by
  by_cases hs : sep ∈ s
  · obtain ⟨a, b, rfl, ha⟩ := List.eq_append_cons_of_mem hs
    rw [splitFirst?_append b ha] at h
    cases h
    exact ⟨rfl, ha⟩
  · rw [splitFirst?_of_not_mem hs] at h
    cases h

theorem fields_of_not_mem {sep : Char} {s : List Char} (h : sep ∉ s) : fields sep s = [s] := by
  induction s with
  | nil => rfl
  | cons c s ih =>
      obtain ⟨hc, h⟩ := List.ne_and_not_mem_of_not_mem_cons h
      rw [fields, if_neg (Ne.symm hc), ih h]

/-- The first field reaches to the first separator. -/
theorem fields_append {sep : Char} {front : List Char} (back : List Char) (h : sep ∉ front) :
    fields sep (front ++ sep :: back) = front :: fields sep back := by
  induction front with
  | nil => rw [List.nil_append, fields, if_pos rfl]
  | cons c front ih =>
      obtain ⟨hc, h⟩ := List.ne_and_not_mem_of_not_mem_cons h
      rw [List.cons_append, fields, if_neg (Ne.symm hc), ih h]

/-- Items that are written in the fields of a text are written with commas in the text. -/
theorem itemsWritten_of_fields {items : List Item} {s : List Char}
    (h : List.Forall₂ Item.Written items (fields ',' s)) : ItemsWritten items s := by
  induction items generalizing s with
  | nil =>
      by_cases hs : ',' ∈ s
      · obtain ⟨a, b, rfl, ha⟩ := List.eq_append_cons_of_mem hs
        rw [fields_append b ha] at h
        cases h
      · rw [fields_of_not_mem hs] at h
        cases h
  | cons item items ih =>
      by_cases hs : ',' ∈ s
      · obtain ⟨a, b, rfl, ha⟩ := List.eq_append_cons_of_mem hs
        rw [fields_append b ha] at h
        obtain ⟨hitem, hrest⟩ := List.forall₂_cons.mp h
        exact .cons hitem (ih hrest)
      · rw [fields_of_not_mem hs] at h
        obtain ⟨hitem, hrest⟩ := List.forall₂_cons.mp h
        cases hrest
        exact .one hitem

/-- The fields of items without commas of their own are the items. -/
theorem fields_of_itemsWritten {items : List Item} {s : List Char} (h : ItemsWritten items s)
    (hfree : ∀ item ∈ items, ∀ t, item.Written t → ',' ∉ t) :
    List.Forall₂ Item.Written items (fields ',' s) := by
  induction h with
  | one hs =>
      rw [fields_of_not_mem (hfree _ List.mem_cons_self _ hs)]
      exact .cons hs .nil
  | cons hs _ ih =>
      obtain ⟨hfirst, hfree⟩ := List.forall_mem_cons.mp hfree
      rw [fields_append _ (hfirst _ hs)]
      exact .cons hs (ih hfree)

/-! ## Items -/

/-- A type token is accepted exactly if it stands for a kind. -/
theorem parameterKind_iff {token : List Char} {k : Kind} :
    parameterKind token = .ok k ↔ TypeToken token k := by
  rw [typeToken_iff]
  constructor
  · intro h
    unfold parameterKind at h
    split at h
    case isTrue hi =>
        split at h
        case h_1 k' hk =>
            cases h
            exact ⟨hi, hk⟩
        case h_2 => cases h
    case isFalse => cases h
  · rintro ⟨hi, hk⟩
    rw [parameterKind, if_pos hi, hk]

/-- Every item declares one parameter. -/
theorem Declares.length_eq {hints : List String} {items : List Item} {ps : List Parameter}
    (h : Declares hints items ps) : items.length = ps.length := by
  rw [← h.each.length_eq, List.length_zipIdx]

/-- The items declare the parameters at their positions. -/
theorem Declares.getElem? {hints : List String} {items : List Item} {ps : List Parameter}
    (h : Declares hints items ps) {position : Nat} {item : Item} {p : Parameter}
    (hitem : items[position]? = some item) (hp : ps[position]? = some p) :
    item.Declares hints position p := by
  obtain ⟨hi, rfl⟩ := List.getElem?_eq_some_iff.mp hitem
  obtain ⟨hj, rfl⟩ := List.getElem?_eq_some_iff.mp hp
  have heach := h.each.get (i := position) (by simpa using hi) hj
  simpa only [List.get_eq_getElem, List.getElem_zipIdx, Nat.zero_add] using heach

/-- Every item of a list declares some parameter at some position. -/
theorem Declares.exists_of_mem {hints : List String} {items : List Item} {ps : List Parameter}
    (h : Declares hints items ps) {item : Item} (hitem : item ∈ items) :
    ∃ position p, item.Declares hints position p := by
  obtain ⟨i, hi, rfl⟩ := List.getElem_of_mem hitem
  have hj : i < ps.length := h.length_eq ▸ hi
  exact ⟨i, ps[i], h.getElem? (List.getElem?_eq_getElem hi) (List.getElem?_eq_getElem hj)⟩

/-- An item that declares a parameter has no comma in it, however it is written. -/
theorem Item.Declares.comma_not_mem {hints : List String} {position : Nat} {item : Item}
    {p : Parameter} (h : item.Declares hints position p) {s : List Char} (hs : item.Written s) :
    ',' ∉ s := by
  cases h with
  | bare ht =>
      cases hs with
      | bare hs => exact ht.ident.not_mem_of_padded hs (by decide) (by decide)
  | named hn ht =>
      cases hs with
      | named hs hs' =>
          intro hc
          rcases List.mem_append.mp hc with hc | hc
          · exact hn.not_mem_of_padded hs (by decide) (by decide) hc
          · rcases List.mem_cons.mp hc with hc | hc
            · exact absurd hc (by decide)
            · exact ht.ident.not_mem_of_padded hs' (by decide) (by decide) hc

/-- An item that is accepted is one of the grammar. -/
theorem declares_of_parameterOfItem {hints : List String} {position : Nat} {after named : Bool}
    {s : List Char} {p : Parameter}
    (h : parameterOfItem hints position after (trim s) = .ok (p, named)) :
    ∃ item : Item, item.Written s ∧ item.Declares hints position p ∧ item.isNamed = named ∧
      (after = true → named = true) := by
  unfold parameterOfItem at h
  split at h
  case isTrue => cases h
  case isFalse hne =>
      split at h
      case h_1 name type hsplit =>
          obtain ⟨heq, -⟩ := eq_of_splitFirst?_eq_some hsplit
          dsimp only at h
          split at h
          case isTrue hi =>
              obtain ⟨k, hk, h⟩ := bind_eq_ok_iff.mp h
              cases h
              -- the blanks trimmed off the item go to its name and to its type
              obtain ⟨front, back, hf, hb, hs⟩ := padded_trim s
              have hs : s = (front ++ name) ++ '=' :: (type ++ back) := by
                rw [hs, heq]
                simp
              rw [hs]
              exact ⟨.named (trim name) (trim type),
                .named ((padded_trim name).append_left hf) ((padded_trim type).append_right hb),
                .named (isIdent_iff.mp hi) (parameterKind_iff.mp hk), rfl, fun _ => rfl⟩
          case isFalse => cases h
      case h_2 =>
          split at h
          case isTrue => cases h
          case isFalse hafter =>
              obtain ⟨k, hk, h⟩ := bind_eq_ok_iff.mp h
              cases h
              exact ⟨.bare (trim s), .bare (padded_trim s), .bare (parameterKind_iff.mp hk), rfl,
                fun h => absurd h hafter⟩

/-- An item of the grammar is accepted, unless it lacks a name and comes too late. -/
theorem parameterOfItem_of_declares {hints : List String} {position : Nat} {after : Bool}
    {item : Item} {s : List Char} {p : Parameter} (hs : item.Written s)
    (hp : item.Declares hints position p) (hafter : after = true → item.isNamed = true) :
    parameterOfItem hints position after (trim s) = .ok (p, item.isNamed) := by
  cases hp with
  | @bare type k ht =>
      cases hs with
      | bare hs =>
          have hne : ¬ type.isEmpty = true := by simpa using ht.ident.1
          have hsplit : splitFirst? '=' type = none := by
            refine splitFirst?_of_not_mem fun hc => ?_
            have := ht.ident.2 _ hc
            exact absurd this (by decide)
          have hafter : ¬ after = true := fun h => by cases hafter h
          rw [hs.trim_eq ht.ident.solid, parameterOfItem, if_neg hne, hsplit]
          dsimp only
          rw [if_neg hafter, parameterKind_iff.mpr ht]
          rfl
  | @named name type k hn ht =>
      cases hs with
      | @named _ _ s t hs ht' =>
          -- the first equals sign is the one behind the name, as no identifier holds any
          have hfree : '=' ∉ trimStart s := fun hc =>
            hn.not_mem_of_padded hs (by decide) (by decide) (List.dropWhile_subset _ hc)
          have hne : ¬ (trimStart s ++ '=' :: trimEnd t).isEmpty = true := by simp
          rw [trim_append_cons _ _ (by decide), parameterOfItem, if_neg hne,
            splitFirst?_append _ hfree]
          dsimp only
          rw [trim_trimStart, hs.trim_eq hn.solid, if_pos (isIdent_iff.mpr hn), trim_trimEnd,
            ht'.trim_eq ht.ident.solid, parameterKind_iff.mpr ht]
          rfl

/-! ## Lists -/

/-- What items declare from a position on, behind the parameters already read and knowing
    whether one of those had a name of its own. -/
structure Continues (hints : List String) (position : Nat) (after : Bool)
    (read : List Parameter) (items : List Item) (more : List Parameter) : Prop where
  each : List.Forall₂ (fun item p => item.1.Declares hints item.2 p) (items.zipIdx position) more
  ordered : items.Pairwise fun a b => a.isNamed → b.isNamed
  late : after = true → ∀ item ∈ items, item.isNamed = true
  distinct : ((read ++ more).map (·.name)).Nodup

/-- From the start on, items continue as they declare. -/
theorem continues_zero_iff {hints : List String} {items : List Item} {ps : List Parameter} :
    Continues hints 0 false [] items ps ↔ Declares hints items ps :=
  ⟨fun ⟨each, ordered, _, distinct⟩ => ⟨each, ordered, distinct⟩,
    fun ⟨each, ordered, distinct⟩ => ⟨each, ordered, by simp, distinct⟩⟩

/-- One item passes its name and its parameter on to the items behind it. -/
theorem continues_cons_iff {hints : List String} {position : Nat} {after : Bool}
    {read more : List Parameter} {item : Item} {items : List Item} {p : Parameter} :
    Continues hints position after read (item :: items) (p :: more) ↔
      item.Declares hints position p ∧ (after = true → item.isNamed = true) ∧
        Continues hints (position + 1) item.isNamed (read ++ [p]) items more := by
  constructor
  · rintro ⟨each, ordered, late, distinct⟩
    rw [List.zipIdx_cons] at each
    obtain ⟨hitem, hitems⟩ := List.forall₂_cons.mp each
    obtain ⟨hbehind, ordered⟩ := List.pairwise_cons.mp ordered
    exact ⟨hitem, fun h => late h item List.mem_cons_self, hitems, ordered,
      fun hn b hb => hbehind b hb hn, by simpa using distinct⟩
  · rintro ⟨hitem, hafter, each, ordered, late, distinct⟩
    refine ⟨.cons hitem each, List.pairwise_cons.mpr ⟨fun b hb hn => late hn b hb, ordered⟩, ?_,
      by simpa using distinct⟩
    intro h b hb
    rcases List.mem_cons.mp hb with rfl | hb
    · exact hafter h
    · exact late (hafter h) b hb

/-- The loop over the items accepts what continues the parameters already read. -/
theorem parametersOfItems_iff {hints : List String} {position : Nat} {after : Bool}
    {read ps : List Parameter} {texts : List (List Char)}
    (hread : (read.map (·.name)).Nodup) :
    parametersOfItems hints position after read texts = .ok ps ↔
      ∃ items more, List.Forall₂ Item.Written items texts ∧
        Continues hints position after read items more ∧ ps = read ++ more := by
  induction texts generalizing position after read with
  | nil =>
      constructor
      · intro h
        cases h
        exact ⟨[], [], .nil, ⟨.nil, .nil, by simp, by simpa using hread⟩, by simp⟩
      · rintro ⟨items, more, htexts, hmore, rfl⟩
        cases htexts
        cases hmore.each
        simp [parametersOfItems]
  | cons s texts ih =>
      constructor
      · intro h
        obtain ⟨⟨p, named⟩, hp, h⟩ := bind_eq_ok_iff.mp h
        dsimp only at h
        split at h
        case isTrue => cases h
        case isFalse hfresh =>
            obtain ⟨item, hs, hitem, rfl, hafter⟩ := declares_of_parameterOfItem hp
            have hread' : ((read ++ [p]).map (·.name)).Nodup := by
              simpa [List.nodup_append, hread] using hfresh
            obtain ⟨items, more, htexts, hmore, rfl⟩ := (ih hread').mp h
            exact ⟨item :: items, p :: more, .cons hs htexts,
              continues_cons_iff.mpr ⟨hitem, hafter, hmore⟩, by simp⟩
      · rintro ⟨items, more, htexts, hmore, rfl⟩
        obtain ⟨item, items, hs, hrest, rfl⟩ := List.forall₂_cons_right_iff.mp htexts
        obtain ⟨p, more, -, -, rfl⟩ := List.forall₂_cons_left_iff.mp hmore.each
        obtain ⟨hitem, hafter, hmore⟩ := continues_cons_iff.mp hmore
        -- a name that is taken would show up twice among all names at the end
        have hread' : ((read ++ [p]).map (·.name)).Nodup := by
          refine hmore.distinct.sublist (List.Sublist.map _ ?_)
          exact List.sublist_append_left _ _
        have hfresh : ¬ read.any (fun q => q.name = p.name) = true := by
          simpa [List.nodup_append, hread] using hread'
        unfold parametersOfItems
        rw [parameterOfItem_of_declares hs hitem hafter]
        change (if read.any (fun q => q.name = p.name) = true then _ else _) = _
        rw [if_neg hfresh]
        exact (ih hread').mpr ⟨items, more, hrest, hmore, by simp⟩

/-- The list with all its items is accepted exactly if it is a list of the grammar whose items
    declare the parameters. -/
theorem parametersOfItems_fields_iff {hints : List String} {s : List Char}
    {ps : List Parameter} :
    parametersOfItems hints 0 false [] (fields ',' s) = .ok ps ↔
      ∃ items, ItemsWritten items s ∧ Declares hints items ps := by
  have hnil : (([] : List Parameter).map (·.name)).Nodup := List.nodup_nil
  rw [parametersOfItems_iff hnil]
  constructor
  · rintro ⟨items, more, htexts, hmore, rfl⟩
    exact ⟨items, itemsWritten_of_fields htexts, continues_zero_iff.mp hmore⟩
  · rintro ⟨items, hs, hdecl⟩
    refine ⟨items, ps, fields_of_itemsWritten hs fun item hitem t ht => ?_,
      continues_zero_iff.mpr hdecl, rfl⟩
    obtain ⟨position, p, hp⟩ := hdecl.exists_of_mem hitem
    exact hp.comma_not_mem ht

/-- A blank list is one empty item to the loop, which it does not accept. -/
theorem parametersOfItems_fields_of_blank {hints : List String} {s : List Char} (h : Blank s) :
    parametersOfItems hints 0 false [] (fields ',' s) = .error (.emptyParameter 0) := by
  have hfree : ',' ∉ s := fun hc => absurd (h _ hc) (by decide)
  rw [fields_of_not_mem hfree, parametersOfItems, trim_of_blank h]
  rfl

/-- What stands between the parentheses is accepted exactly if it is blank or a list of the
    grammar whose items declare the parameters. -/
theorem parametersOfList_iff {hints : List String} {s : List Char} {ps : List Parameter} :
    parametersOfList hints s = .ok ps ↔
      ∃ items, ListWritten items s ∧ Declares hints items ps := by
  by_cases hblank : Blank s
  · have hempty : (trim s).isEmpty = true := by rw [trim_of_blank hblank, List.isEmpty_nil]
    rw [parametersOfList, if_pos hempty]
    constructor
    · intro h
      cases h
      exact ⟨[], .blank hblank, .nil, .nil, List.nodup_nil⟩
    · rintro ⟨items, hs, hdecl⟩
      cases hs with
      | blank =>
          cases hdecl.each
          rfl
      | items hs =>
          -- a blank list is no list of items: the loop would have to accept it
          have hloop := parametersOfItems_fields_iff.mpr ⟨items, hs, hdecl⟩
          rw [parametersOfItems_fields_of_blank hblank] at hloop
          cases hloop
  · have hempty : ¬ (trim s).isEmpty = true := fun h =>
      hblank (blank_of_trim_eq_nil (List.isEmpty_iff.mp h))
    rw [parametersOfList, if_neg hempty, parametersOfItems_fields_iff]
    constructor
    · rintro ⟨items, hs, hdecl⟩
      exact ⟨items, .items hs, hdecl⟩
    · rintro ⟨items, hs, hdecl⟩
      cases hs with
      | blank hs => exact absurd hs hblank
      | items hs => exact ⟨items, hs, hdecl⟩

end Switchboard.Signature
