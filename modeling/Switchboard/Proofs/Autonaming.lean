import Switchboard.Proofs.Cells
import Switchboard.Proofs.Words

/-!
# Names for parameters without one

The automatic names are all words in their order (`words_before`), and the loop
that spells one never asks for an index below zero (`spell?_eq`). Since no name
comes twice, parameters that are declared by their types alone never get in
each other's way: only a list in which some name is written can be refused for
a name that repeats.
-/

namespace Switchboard

/-! ## The sequence -/

/-- A text of lower-case letters, and at least one of them. -/
structure Word (s : String) : Prop where
  ne_nil : s.toList ≠ []
  letters : ∀ c ∈ s.toList, IsLetter c

theorem toList_autoName (index : Nat) : (autoName index).toList = autoLetters index :=
  String.toList_ofList

theorem word_autoName (index : Nat) : Word (autoName index) := by
  refine ⟨?_, ?_⟩ <;> rw [toList_autoName]
  · exact (Signature.ident_autoLetters index).1
  · exact isLetter_of_mem_autoLetters index

/-- No name is made up for two positions. -/
theorem autoName_injective : Function.Injective autoName := by
  intro m n h
  have hrank := congrArg (fun s => rank s.toList) h
  simp only [toList_autoName, rank_autoLetters] at hrank
  exact Nat.succ.inj hrank

/-- Every word is made up for some position. -/
theorem exists_autoName {s : String} (h : Word s) : ∃ index, autoName index = s := by
  refine ⟨rank s.toList - 1, ?_⟩
  rw [autoName, autoLetters_rank h.ne_nil h.letters, String.ofList_toList]

/-- In front of a name of the sequence come just the names of smaller index. -/
theorem words_before (index : Nat) :
    {s | Word s ∧ Precedes s.toList (autoName index).toList} = autoName '' {i | i < index} := by
  ext s
  constructor
  · rintro ⟨hword, hbefore⟩
    obtain ⟨i, rfl⟩ := exists_autoName hword
    rw [toList_autoName, toList_autoName, precedes_autoLetters_iff] at hbefore
    exact ⟨i, hbefore, rfl⟩
  · rintro ⟨i, hi, rfl⟩
    refine ⟨word_autoName i, ?_⟩
    rw [toList_autoName, toList_autoName]
    exact precedes_autoLetters_iff.mpr hi

/-! ## Spelling -/

/-- The loop that spells the name at an index. It writes the last letter and goes on with what is
    in front of it, for which it counts down from the number of full rounds of the alphabet; the
    letters are turned round at the end. There would be no result if it had to count down from
    zero. -/
def spell? (index : Nat) (written : List Char) : Option (List Char) :=
  if index < 26 then some (written ++ [letter (index % 26)]).reverse
  else if index / 26 = 0 then none
  else spell? (index / 26 - 1) (written ++ [letter (index % 26)])
termination_by index
decreasing_by omega

/-- The loop never runs below zero, and it puts the letters of its index in front of those it
    has written. -/
theorem spell?_eq (index : Nat) (written : List Char) :
    spell? index written = some (autoLetters index ++ written.reverse) := by
  induction index using autoLetters.induct generalizing written with
  | case1 index h =>
      rw [spell?, if_pos h, autoLetters, if_pos h, Nat.mod_eq_of_lt h, List.reverse_append,
        List.reverse_singleton]
  | case2 index h ih =>
      have hround : ¬ index / 26 = 0 := by omega
      rw [spell?, if_neg h, if_neg hround, autoLetters, if_neg h, ih, List.reverse_append,
        List.reverse_singleton, List.append_assoc]

namespace Signature

open Text

/-! ## Lists in which no name is written -/

/-- A type is never refused for a name. -/
theorem parameterKind_ne_duplicate (token : List Char) (name : String) :
    parameterKind token ≠ .error (.duplicateParameter name) := by
  unfold parameterKind
  split
  · split <;> exact nofun
  · exact nofun

theorem returnsOfRest_ne_duplicate (s : List Char) (name : String) :
    returnsOfRest s ≠ .error (.duplicateParameter name) := by
  unfold returnsOfRest
  split
  · exact nofun
  · dsimp only
    split
    · exact nofun
    · split
      · split <;> exact nofun
      · exact nofun
  · exact nofun

/-- An item without a name of its own gets the automatic one of its position, and if it is refused
    it is not for a name. -/
theorem autoNamed_or_refused {item : List Char} (hitem : '=' ∉ item) (position : Nat)
    (after : Bool) :
    (∃ p named, parameterOfItem [] position after item = .ok (p, named)
        ∧ p.name = autoName position)
      ∨ ∃ d, parameterOfItem [] position after item = .error d
        ∧ ∀ name, d ≠ .duplicateParameter name := by
  unfold parameterOfItem
  rw [splitFirst?_of_not_mem hitem]
  split
  case isTrue => exact Or.inr ⟨_, rfl, fun _ => nofun⟩
  case isFalse =>
    dsimp only
    split
    case isTrue => exact Or.inr ⟨_, rfl, fun _ => nofun⟩
    case isFalse =>
      cases hkind : parameterKind item with
      | ok k => exact Or.inl ⟨_, _, rfl, rfl⟩
      | error d =>
          refine Or.inr ⟨d, rfl, fun name hd => parameterKind_ne_duplicate item name ?_⟩
          rw [hkind, hd]

/-- While no item has a name of its own, what has been read has the first names of the sequence, so
    the next one is new. -/
theorem parametersOfItems_ne_duplicate {items : List (List Char)} (hitems : ∀ s ∈ items, '=' ∉ s)
    {position : Nat} {after : Bool} {read : List Parameter}
    (hread : read.map (·.name) = (List.range position).map autoName) (name : String) :
    parametersOfItems [] position after read items ≠ .error (.duplicateParameter name) := by
  induction items generalizing position after read with
  | nil => exact nofun
  | cons s items ih =>
      obtain ⟨hs, hitems⟩ := List.forall_mem_cons.mp hitems
      have hbare : '=' ∉ trim s := fun hc => hs ((mem_trim_iff (by decide) s).mp hc)
      rw [parametersOfItems]
      rcases autoNamed_or_refused hbare position after with ⟨p, named, hp, hname⟩ | ⟨d, hd, hne⟩
      · rw [hp]
        -- the names so far are those of the positions before, and no name is made up twice
        have hfresh : ¬ read.any (fun q => q.name = p.name) = true := by
          intro htaken
          simp only [List.any_eq_true, decide_eq_true_eq] at htaken
          obtain ⟨q, hq, hqp⟩ := htaken
          have hmem := List.mem_map_of_mem (f := (·.name)) hq
          rw [hread, hqp, hname, List.mem_map_of_injective autoName_injective,
            List.mem_range] at hmem
          exact absurd hmem (Nat.lt_irrefl position)
        show (if _ then _ else _) ≠ _
        rw [if_neg hfresh]
        refine ih hitems ?_
        rw [List.map_append, hread, List.range_succ, List.map_append, List.map_singleton, hname]
        rfl
      · rw [hd]
        exact fun h => hne name (Except.error.inj h)

theorem parametersOfList_ne_duplicate {list : List Char} (hlist : '=' ∉ list) (name : String) :
    parametersOfList [] list ≠ .error (.duplicateParameter name) := by
  unfold parametersOfList
  split
  · exact nofun
  · refine parametersOfItems_ne_duplicate ?_ rfl name
    intro item hitem hc
    exact hlist ((mem_fields_iff (by decide) list).mp ⟨item, hitem, hc⟩)

/-- A text is refused for a name that repeats only because of what stands between the first opening
    parenthesis and the first closing one behind it. -/
theorem exists_list_of_duplicate {text name : String} {hints : List String}
    (h : parse text hints = .error (.duplicateParameter name)) :
    ∃ front list back, text.toList = front ++ '(' :: (list ++ ')' :: back) ∧
      '(' ∉ front ∧ ')' ∉ list ∧
      parametersOfList hints list = .error (.duplicateParameter name) := by
  obtain ⟨before, behind, hbefore, -, htext⟩ := padded_trim text.toList
  rw [parse_eq_partsOfTail] at h
  split at h
  case isTrue => exact nomatch h
  case isFalse =>
    have hnames : '(' ∉ (trim text.toList).takeWhile isNameChar :=
      fun hc => absurd (List.mem_takeWhile_imp hc) (by decide)
    obtain ⟨gap, hgap, hrest⟩ := exists_trimStart ((trim text.toList).dropWhile isNameChar)
    cases hparts : partsOfTail hints
        (trimStart ((trim text.toList).dropWhile isNameChar)) with
    | ok parts =>
        rw [hparts] at h
        exact nomatch h
    | error d =>
        rw [hparts] at h
        obtain rfl : d = .duplicateParameter name := Except.error.inj h
        -- no other part of a text is refused for a name, so the list must have been
        unfold partsOfTail at hparts
        split at hparts
        case h_1 inner hopen =>
          split at hparts
          case h_1 => exact nomatch hparts
          case h_2 list rest hsplit =>
            obtain ⟨rfl, hfirst⟩ := eq_of_splitFirst?_eq_some hsplit
            rw [hopen] at hrest
            refine ⟨before ++ ((trim text.toList).takeWhile isNameChar ++ gap), list,
              rest ++ behind, ?_, ?_, hfirst, ?_⟩
            · calc
                text.toList = before ++ trim text.toList ++ behind := htext
                _ = before ++ ((trim text.toList).takeWhile isNameChar
                      ++ (gap ++ '(' :: (list ++ ')' :: rest))) ++ behind := by
                    rw [← hrest, List.takeWhile_append_dropWhile]
                _ = _ := by simp
            · have hblank : isBlank '(' = false := by decide
              have hfree {s : List Char} (hs : Blank s) : '(' ∉ s := by
                intro hc
                exact nomatch hblank.symm.trans (hs _ hc)
              simp [hnames, hfree hbefore, hfree hgap]
            · rcases bind_eq_error_iff.mp hparts with hlist | ⟨ps, -, hlater⟩
              · exact hlist
              · rcases bind_eq_error_iff.mp hlater with hreturns | ⟨k, -, hdone⟩
                · exact absurd hreturns (returnsOfRest_ne_duplicate _ name)
                · exact nomatch hdone
        case h_2 =>
          rcases bind_eq_error_iff.mp hparts with hreturns | ⟨k, -, hdone⟩
          · exact absurd hreturns (returnsOfRest_ne_duplicate _ name)
          · exact nomatch hdone

/-! ## Lists of types -/

/-- Parameters of some kinds with the first names of the sequence. -/
def autonamed (kinds : List Kind) : List Parameter :=
  kinds.zipIdx.map fun x => ⟨autoName x.2, x.1⟩

/-- Parameters without names are named by their positions. -/
theorem names_autonamed (kinds : List Kind) :
    (autonamed kinds).map (·.name) = (List.range kinds.length).map autoName := by
  rw [autonamed, List.map_map, List.range_eq_range', ← List.zipIdx_map_snd 0 kinds, List.map_map]
  rfl

/-- Types alone, however many, declare parameters with the first names of the sequence. -/
theorem declares_bare {types : List (List Char)} {kinds : List Kind}
    (h : List.Forall₂ TypeToken types kinds) :
    Declares [] (types.map .bare) (autonamed kinds) where
  each := by
    -- the induction is on the list and leaves open at which position it begins
    suffices heach : ∀ position, List.Forall₂ (fun item p => item.1.Declares [] item.2 p)
        ((types.map Item.bare).zipIdx position)
        ((kinds.zipIdx position).map fun x => ⟨autoName x.2, x.1⟩) from heach 0
    induction h with
    | nil => exact fun _ => .nil
    | cons htype _ ih =>
        intro position
        exact .cons (.bare htype) (ih (position + 1))
  ordered := by
    rw [List.pairwise_map]
    exact List.pairwise_of_forall fun _ _ => nofun
  distinct := by
    rw [names_autonamed]
    exact List.nodup_range.map autoName_injective

/-- A signature with bare types only is read with the names that are made up for their
    positions. -/
theorem parse_of_bare {text : String} {w : Wording} {types : List (List Char)}
    {kinds : List Kind} {k : Kind} (hw : w.Written text.toList)
    (hitems : w.items? = some (types.map .bare)) (htypes : List.Forall₂ TypeToken types kinds)
    (hk : Returns w.type? k) :
    parse text [] = .ok ⟨String.ofList w.name, some (autonamed kinds), k⟩ := by
  refine (parse_eq_ok_iff _ _ _).mpr ⟨w, hw, rfl, ?_, hk⟩
  rw [hitems]
  exact .some (declares_bare htypes)

/-! ## All names -/

/-- The automatic names are all words in their order. Whatever the index, the loop that spells its
    name never counts down from zero, and just as many words as the index says come in front of the
    name. No name comes twice, all are identifiers, and so without suggestions a text is refused for
    a name that repeats only if a name is written in its list, while types alone are given the first
    names of the sequence. -/
theorem autoName_enumerates :
    (∀ index, spell? index [] = some (autoName index).toList) ∧
      (∀ index : Nat, {s | Word s ∧ Precedes s.toList (autoName index).toList}.encard = index) ∧
      Function.Injective autoName ∧ Set.range autoName = {s | Word s} ∧
      (∀ index, Ident (autoName index).toList) ∧
      (∀ text name, parse text [] = .error (.duplicateParameter name) →
        ∃ front list back, text.toList = front ++ '(' :: (list ++ ')' :: back) ∧
          '(' ∉ front ∧ ')' ∉ list ∧ '=' ∈ list) ∧
      ∀ text (w : Wording) types kinds k, w.Written text.toList →
        w.items? = some (types.map .bare) → List.Forall₂ TypeToken types kinds →
        Returns w.type? k → parse text [] = .ok ⟨String.ofList w.name, some (autonamed kinds), k⟩ := by
  refine ⟨?_, ?_, autoName_injective, ?_, ?_, ?_, ?_⟩
  · intro index
    rw [spell?_eq, toList_autoName, List.reverse_nil, List.append_nil]
  · intro index
    -- the words in front of a name are the names of the positions before
    rw [words_before, autoName_injective.encard_image, Set.Nat.encard_range]
  · refine Set.Subset.antisymm ?_ fun s hs => exists_autoName hs
    rintro _ ⟨index, rfl⟩
    exact word_autoName index
  · intro index
    rw [toList_autoName]
    exact ident_autoLetters index
  · intro text name h
    obtain ⟨front, list, back, htext, hopen, hclose, hlist⟩ := exists_list_of_duplicate h
    refine ⟨front, list, back, htext, hopen, hclose, ?_⟩
    by_contra hbare
    exact parametersOfList_ne_duplicate hbare name hlist
  · intro text w types kinds k hw hitems htypes hk
    exact parse_of_bare hw hitems htypes hk

/-- Two types alone get the first two names, and only written names get in each other's way. -/
theorem two_types_autonamed :
    (∃ index, autoName index = "zz") ∧
      parse "m(num,str)" [] = .ok ⟨"m", some [⟨"a", .number⟩, ⟨"b", .string⟩], .any⟩ ∧
      parse "m(a=num,a=str)" [] = .error (.duplicateParameter "a") ∧
      ∃ front list back, "m(a=num,a=str)".toList = front ++ '(' :: (list ++ ')' :: back) ∧
        '(' ∉ front ∧ ')' ∉ list ∧ '=' ∈ list := by
  obtain ⟨-, -, -, hrange, -, hrefused, hread⟩ := autoName_enumerates
  have hzz : "zz" ∈ Set.range autoName := by
    have hz : IsLetter 'z' := isLetter_iff.mpr (by decide)
    rw [hrange]
    exact ⟨by decide, List.forall_mem_cons.mpr ⟨hz, List.forall_mem_singleton.mpr hz⟩⟩
  have hfirst : autoName 0 = "a" := by
    rw [autoName, autoLetters, if_pos (by decide)]
    rfl
  have hsecond : autoName 1 = "b" := by
    rw [autoName, autoLetters, if_pos (by decide)]
    rfl
  have htaken : parse "m(a=num,a=str)" [] = .error (.duplicateParameter "a") := by decide
  refine ⟨hzz, ?_, htaken, hrefused _ _ htaken⟩
  have hitems : ItemsWritten [.bare "num".toList, .bare "str".toList] "num,str".toList :=
    .cons (.bare (padded_self "num".toList)) (.one (.bare (padded_self "str".toList)))
  have hname : LongestPrefix isNameChar ['m'] (['m'] ++ "(num,str)".toList) := by
    refine longestPrefix_append_iff.mpr ⟨List.forall_mem_singleton.mpr (by decide), ?_⟩
    intro c hc
    obtain rfl : '(' = c := Option.some.inj hc
    decide
  rw [← hfirst, ← hsecond]
  exact hread "m(num,str)" ⟨['m'], some [.bare "num".toList, .bare "str".toList], none⟩
    ["num".toList, "str".toList] [.number, .string] .any
    ⟨[], "(num,str)".toList, blank_nil, rfl, List.cons_ne_nil _ _, hname,
      .listed blank_nil (.items hitems) (by decide) (.absent blank_nil)⟩ rfl
    (.cons (typeToken_iff.mpr (by decide)) (.cons (typeToken_iff.mpr (by decide)) .nil)) rfl

end Signature

end Switchboard
