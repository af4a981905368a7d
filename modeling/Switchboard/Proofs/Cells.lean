import Switchboard.Proofs.Parsing

/-!
# Lists by their cells

What the parser takes from a parameter list are its CELLS: the list cut at commas, each part cut
at equals signs, and everything trimmed. `ListWritten.cells_eq` says that the cells do not depend
on the blanks that the list is written with, and `parametersOfList_congr` that nothing but the
cells decides whether a list is accepted and as what.

The tokens of a list are any texts here, also such as no list has that is accepted, because a
list that is refused has to be refused however it is spaced. A token may so hold separators of
its own, and `weld` says how its parts come to stand in the cells.
-/

namespace Switchboard.Signature

open Text

/-! ## Fields of texts that are joined -/

/-- Two lists of texts, the last of the first and the first of the second run together. -/
def weld {α : Type} : List (List α) → List (List α) → List (List α)
  | [], ys => ys
  | [x], [] => [x]
  | [x], y :: ys => (x ++ y) :: ys
  | x :: x' :: xs, ys => x :: weld (x' :: xs) ys

theorem weld_cons {α : Type} (x : List α) {xs : List (List α)} (hxs : xs ≠ [])
    (ys : List (List α)) : weld (x :: xs) ys = x :: weld xs ys := by
  cases xs with
  | nil => exact absurd rfl hxs
  | cons x' xs => rfl

/-- Even the empty text has one field. -/
theorem fields_ne_nil (sep : Char) (s : List Char) : fields sep s ≠ [] := by
  cases s with
  | nil => exact List.cons_ne_nil _ _
  | cons c s =>
      rw [fields]
      split
      · exact List.cons_ne_nil _ _
      · split
        · exact List.cons_ne_nil _ _
        · exact List.cons_ne_nil _ _

/-- A separator keeps the fields on its two sides apart. -/
theorem fields_append_separator {sep : Char} (s t : List Char) :
    fields sep (s ++ sep :: t) = fields sep s ++ fields sep t := by
  induction s with
  | nil =>
      have hcut : fields sep (sep :: t) = [] :: fields sep t := by rw [fields, if_pos rfl]
      exact hcut
  | cons c s ih =>
      rw [List.cons_append, fields, fields, ih]
      by_cases hc : c = sep
      · rw [if_pos hc, if_pos hc, List.cons_append]
      · rw [if_neg hc, if_neg hc]
        cases hs : fields sep s with
        | nil => exact absurd hs (fields_ne_nil sep s)
        | cons field more => rfl

/-- Without a separator in between, the fields in the middle run together. -/
theorem fields_joined (sep : Char) (s t : List Char) :
    fields sep (s ++ t) = weld (fields sep s) (fields sep t) := by
  induction s with
  | nil =>
      cases ht : fields sep t with
      | nil => exact absurd ht (fields_ne_nil sep t)
      | cons field more => rw [List.nil_append, ht]; rfl
  | cons c s ih =>
      rw [List.cons_append, fields, fields, ih]
      by_cases hc : c = sep
      · rw [if_pos hc, if_pos hc, weld_cons _ (fields_ne_nil sep s)]
      · rw [if_neg hc, if_neg hc]
        cases hs : fields sep s with
        | nil => exact absurd hs (fields_ne_nil sep s)
        | cons field more =>
            cases ht : fields sep t with
            | nil => exact absurd ht (fields_ne_nil sep t)
            | cons field' more' => cases more <;> rfl

theorem map_weld_left {β : Type} {f : List Char → β} {x : List Char}
    (hf : ∀ y, f (x ++ y) = f y) {ys : List (List Char)} (hys : ys ≠ []) :
    (weld [x] ys).map f = ys.map f := by
  cases ys with
  | nil => exact absurd rfl hys
  | cons y ys => simp [weld, hf]

theorem map_weld_right {β : Type} {f : List Char → β} {y : List Char}
    (hf : ∀ x, f (x ++ y) = f x) {xs : List (List Char)} (hxs : xs ≠ []) :
    (weld xs [y]).map f = xs.map f := by
  induction xs with
  | nil => exact absurd rfl hxs
  | cons x xs ih =>
      cases xs with
      | nil => simp [weld, hf]
      | cons x' xs => rw [weld, List.map_cons, List.map_cons, ih (List.cons_ne_nil _ _)]

/-- A character other than the separator is in some field exactly if it is in the text. -/
theorem mem_fields_iff {sep c : Char} (hc : c ≠ sep) (s : List Char) :
    (∃ field ∈ fields sep s, c ∈ field) ↔ c ∈ s := by
  induction s with
  | nil => simp [fields]
  | cons d s ih =>
      rw [fields, List.mem_cons, ← ih]
      by_cases hd : d = sep
      · rw [if_pos hd]
        simp [hd, hc]
      · rw [if_neg hd]
        cases hs : fields sep s with
        | nil => exact absurd hs (fields_ne_nil sep s)
        | cons field more => simp [or_assoc]

/-! ## Cells -/

/-- The parts of an item between equals signs, trimmed. -/
def row (s : List Char) : List (List Char) := (fields '=' s).map trim

/-- The parts of a list between commas, each cut into its parts. -/
def cells (s : List Char) : List (List (List Char)) := (fields ',' s).map row

/-- Blanks in front of an item do not show in its parts. -/
theorem row_blank_append {front : List Char} (hf : Blank front) (s : List Char) :
    row (front ++ s) = row s := by
  have hfree : '=' ∉ front := fun hc => absurd (hf _ hc) (by decide)
  rw [row, fields_joined, fields_of_not_mem hfree,
    map_weld_left (trim_blank_append hf) (fields_ne_nil _ s)]
  rfl

/-- Nor do blanks behind it. -/
theorem row_append_blank {back : List Char} (s : List Char) (hb : Blank back) :
    row (s ++ back) = row s := by
  have hfree : '=' ∉ back := fun hc => absurd (hb _ hc) (by decide)
  rw [row, fields_joined, fields_of_not_mem hfree,
    map_weld_right (fun x => trim_append_blank x hb) (fields_ne_nil _ s)]
  rfl

theorem row_append_equals (s t : List Char) : row (s ++ '=' :: t) = row s ++ row t := by
  rw [row, fields_append_separator, List.map_append]
  rfl

theorem cells_append_comma (s t : List Char) : cells (s ++ ',' :: t) = cells s ++ cells t := by
  rw [cells, fields_append_separator, List.map_append]
  rfl

/-- Blanks around a list do not show in its cells. -/
theorem Padded.cells_eq {core s : List Char} (h : Padded core s) : cells s = cells core := by
  obtain ⟨front, back, hf, hb, rfl⟩ := h
  have hfree {gap : List Char} (hgap : Blank gap) : ',' ∉ gap :=
    fun hc => absurd (hgap _ hc) (by decide)
  rw [cells, fields_joined, fields_of_not_mem (hfree hb),
    map_weld_right (fun x => row_append_blank x hb) (fields_ne_nil _ _), fields_joined,
    fields_of_not_mem (hfree hf), map_weld_left (row_blank_append hf) (fields_ne_nil _ _)]
  rfl

theorem map_row_weld {xs ys : List (List Char)} (hxs : xs ≠ []) (hys : ys ≠ []) :
    (weld xs (weld [['=']] ys)).map row = weld (xs.map row) (ys.map row) := by
  cases ys with
  | nil => exact absurd rfl hys
  | cons y ys =>
      induction xs with
      | nil => exact absurd rfl hxs
      | cons x xs ih =>
          cases xs with
          | nil => simp [weld, row_append_equals]
          | cons x' xs =>
              have hmore : (x' :: xs).map row ≠ [] := List.cons_ne_nil _ _
              rw [weld_cons x (List.cons_ne_nil _ _), List.map_cons, ih (List.cons_ne_nil _ _),
                List.map_cons (l := x' :: xs), weld_cons (row x) hmore]

/-- An equals sign joins the last row in front of it to the first one behind it. -/
theorem cells_append_equals (s t : List Char) :
    cells (s ++ '=' :: t) = weld (cells s) (cells t) := by
  have hjoin : fields ',' ('=' :: t) = weld [['=']] (fields ',' t) := fields_joined ',' ['='] t
  rw [cells, fields_joined, hjoin, map_row_weld (fields_ne_nil _ s) (fields_ne_nil _ t)]
  rfl

/-- Outside of what is cut away, a character is in the cells exactly if it is in the list. -/
theorem mem_cells_iff {c : Char} (hcomma : c ≠ ',') (hequals : c ≠ '=')
    (hc : isBlank c = false) (s : List Char) :
    (∃ r ∈ cells s, ∃ cell ∈ r, c ∈ cell) ↔ c ∈ s := by
  have hrow (field : List Char) : (∃ cell ∈ row field, c ∈ cell) ↔ c ∈ field := by
    rw [← mem_fields_iff hequals field]
    simp [row, mem_trim_iff hc]
  rw [← mem_fields_iff hcomma s]
  simp [cells, hrow]

/-! ## Lists that say the same -/

/-- How an item is written has no part in its cells. -/
theorem Item.Written.cells_eq {item : Item} {s t : List Char} (hs : item.Written s)
    (ht : item.Written t) : cells s = cells t := by
  cases hs with
  | bare hs =>
      cases ht with
      | bare ht => rw [Padded.cells_eq hs, Padded.cells_eq ht]
  | named hs hs' =>
      cases ht with
      | named ht ht' =>
          rw [cells_append_equals, cells_append_equals, Padded.cells_eq hs, Padded.cells_eq hs',
            Padded.cells_eq ht, Padded.cells_eq ht']

/-- However items are written, their cells are the same. -/
theorem ItemsWritten.cells_eq {items : List Item} {s t : List Char} (hs : ItemsWritten items s)
    (ht : ItemsWritten items t) : cells s = cells t := by
  induction hs generalizing t with
  | one hs =>
      cases ht with
      | one ht => exact hs.cells_eq ht
      | cons _ hmore => exact nomatch hmore
  | cons hs hmore ih =>
      cases ht with
      | one => exact nomatch hmore
      | cons ht hmore' =>
          rw [cells_append_comma, cells_append_comma, hs.cells_eq ht, ih hmore']

/-- However a list is written, its cells are the same. -/
theorem ListWritten.cells_eq {items : List Item} {s t : List Char} (hs : ListWritten items s)
    (ht : ListWritten items t) : cells s = cells t := by
  have hnil {u : List Char} : ¬ ItemsWritten [] u := fun h => nomatch h
  have hblank {gap : List Char} (hg : Blank gap) : cells gap = cells [] :=
    Padded.cells_eq ⟨gap, [], hg, blank_nil, by simp⟩
  cases hs with
  | blank hs =>
      cases ht with
      | blank ht => rw [hblank hs, hblank ht]
      | items ht => exact absurd ht hnil
  | items hs =>
      cases ht with
      | blank => exact absurd hs hnil
      | items ht => exact hs.cells_eq ht

/-! ## What the parser takes from the cells -/

/-- The parameter that the parts of an item declare, and whether they name it. -/
def parameterOfRow (hints : List String) (position : Nat) (afterNamed : Bool) :
    List (List Char) → Option (Parameter × Bool)
  | [type] =>
    if afterNamed then none
    else (parameterKind type).toOption.map fun k => (⟨suggestedName hints position, k⟩, false)
  | [name, type] =>
    if isIdent name then
      (parameterKind type).toOption.map fun k => (⟨String.ofList name, k⟩, true)
    else none
  | _ => none

theorem parameterKind_of_not_ident {token : List Char} (h : ¬ isIdent token = true) :
    (parameterKind token).toOption = none := by
  rw [parameterKind, if_neg h]
  rfl

/-- An item with a name in front of the first equals sign. -/
theorem parameterOfItem_named (hints : List String) (position : Nat) (after : Bool)
    {a : List Char} (ha : '=' ∉ a) (b : List Char) :
    (parameterOfItem hints position after (trim (a ++ '=' :: b))).toOption
      = if isIdent (trim a) then
          (parameterKind (trim b)).toOption.map fun k => (⟨String.ofList (trim a), k⟩, true)
        else none := by
  have hfree : '=' ∉ trimStart a := fun hc => ha (List.dropWhile_subset _ hc)
  have hne : ¬ (trimStart a ++ '=' :: trimEnd b).isEmpty = true := by simp
  rw [trim_append_cons _ _ (by decide), parameterOfItem, if_neg hne, splitFirst?_append _ hfree]
  dsimp only
  rw [trim_trimStart, trim_trimEnd]
  split
  · rw [toOption_bind]
    cases parameterKind (trim b) <;> rfl
  · rfl

/-- An item that is a type alone. -/
theorem parameterOfItem_bare (hints : List String) (position : Nat) (after : Bool)
    {s : List Char} (hs : '=' ∉ s) :
    (parameterOfItem hints position after (trim s)).toOption
      = if after then none
        else (parameterKind (trim s)).toOption.map fun k =>
          (⟨suggestedName hints position, k⟩, false) := by
  have hsplit : splitFirst? '=' (trim s) = none :=
    splitFirst?_of_not_mem fun hc => hs ((mem_trim_iff (by decide) s).mp hc)
  rw [parameterOfItem]
  by_cases hempty : (trim s).isEmpty = true
  · have hkind : (parameterKind (trim s)).toOption = none :=
      parameterKind_of_not_ident (by simp [isIdent, hempty])
    rw [if_pos hempty, hkind]
    split <;> rfl
  · rw [if_neg hempty, hsplit]
    dsimp only
    split
    · rfl
    · rw [toOption_bind]
      cases parameterKind (trim s) <;> rfl

/-- Text that holds an equals sign is no type. -/
theorem parameterKind_of_mem {b : List Char} (hb : '=' ∈ b) :
    (parameterKind (trim b)).toOption = none := by
  refine parameterKind_of_not_ident fun hi => ?_
  have hc := (isIdent_iff.mp hi).2 '=' ((mem_trim_iff (by decide) b).mpr hb)
  exact absurd hc (by decide)

/-- With two equals signs there are three parts or more, which declare nothing. -/
theorem parameterOfRow_of_mem (hints : List String) (position : Nat) (after : Bool)
    (name : List Char) {b : List Char} (hb : '=' ∈ b) :
    parameterOfRow hints position after (name :: row b) = none := by
  obtain ⟨c, d, rfl, -⟩ := List.eq_append_cons_of_mem hb
  rw [row_append_equals, row, row]
  cases hc : fields '=' c with
  | nil => exact absurd hc (fields_ne_nil _ c)
  | cons x xs =>
      cases hd : fields '=' d with
      | nil => exact absurd hd (fields_ne_nil _ d)
      | cons y ys => cases xs <;> rfl

/-- An item declares what its parts declare. -/
theorem parameterOfItem_toOption (hints : List String) (position : Nat) (after : Bool)
    (s : List Char) :
    (parameterOfItem hints position after (trim s)).toOption
      = parameterOfRow hints position after (row s) := by
  by_cases hs : '=' ∈ s
  · obtain ⟨a, b, rfl, ha⟩ := List.eq_append_cons_of_mem hs
    rw [parameterOfItem_named hints position after ha, row_append_equals, row,
      fields_of_not_mem ha, List.map_singleton, List.singleton_append]
    by_cases hb : '=' ∈ b
    · rw [parameterOfRow_of_mem hints position after _ hb, parameterKind_of_mem hb]
      split <;> rfl
    · rw [row, fields_of_not_mem hb]
      rfl
  · rw [parameterOfItem_bare hints position after hs, row, fields_of_not_mem hs]
    rfl

/-- Items with the same parts declare the same, or are refused together. -/
theorem parametersOfItems_congr {hints : List String} {xs ys : List (List Char)}
    (h : xs.map row = ys.map row) (position : Nat) (after : Bool) (read : List Parameter) :
    (parametersOfItems hints position after read xs).toOption
      = (parametersOfItems hints position after read ys).toOption := by
  induction xs generalizing ys position after read with
  | nil =>
      obtain rfl : ys = [] := List.map_eq_nil_iff.mp h.symm
      rfl
  | cons x xs ih =>
      cases ys with
      | nil => exact nomatch h
      | cons y ys =>
          obtain ⟨hrow, hrest⟩ := List.cons.inj h
          rw [parametersOfItems, parametersOfItems, toOption_bind, toOption_bind,
            parameterOfItem_toOption, parameterOfItem_toOption, hrow]
          refine congrArg _ (funext ?_)
          rintro ⟨p, named⟩
          dsimp only
          split
          · rfl
          · exact ih hrest _ _ _

theorem not_mem_of_length_fields {sep : Char} {s : List Char} (h : (fields sep s).length = 1) :
    sep ∉ s := by
  intro hsep
  obtain ⟨a, b, rfl, -⟩ := List.eq_append_cons_of_mem hsep
  rw [fields_append_separator, List.length_append] at h
  have ha := List.length_pos_of_ne_nil (fields_ne_nil sep a)
  have hb := List.length_pos_of_ne_nil (fields_ne_nil sep b)
  omega

/-- A text that is not cut and of which trimming leaves nothing is blank. -/
theorem isEmpty_trim_iff (s : List Char) : (trim s).isEmpty = true ↔ cells s = [[[]]] := by
  constructor
  · intro hs
    have hpad : Padded [] s :=
      ⟨s, [], blank_of_trim_eq_nil (List.isEmpty_iff.mp hs), blank_nil, by simp⟩
    rw [Padded.cells_eq hpad]
    rfl
  · intro hs
    have hcomma : ',' ∉ s :=
      not_mem_of_length_fields (by simpa [cells] using congrArg List.length hs)
    rw [cells, fields_of_not_mem hcomma] at hs
    have hrow : row s = [[]] := (List.cons.inj hs).1
    have hequals : '=' ∉ s :=
      not_mem_of_length_fields (by simpa [row] using congrArg List.length hrow)
    rw [row, fields_of_not_mem hequals] at hrow
    rw [(List.cons.inj hrow).1]
    rfl

/-- Whether a list is accepted, and as what, can be told from its cells. -/
theorem parametersOfList_congr {hints : List String} {s t : List Char} (h : cells s = cells t) :
    (parametersOfList hints s).toOption = (parametersOfList hints t).toOption := by
  unfold parametersOfList
  by_cases hs : (trim s).isEmpty = true
  · rw [if_pos hs, if_pos ((isEmpty_trim_iff t).mpr (h ▸ (isEmpty_trim_iff s).mp hs))]
  · rw [if_neg hs, if_neg fun ht => hs ((isEmpty_trim_iff s).mpr (h ▸ (isEmpty_trim_iff t).mp ht))]
    exact parametersOfItems_congr h 0 false []

end Switchboard.Signature
