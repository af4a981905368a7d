import Switchboard.Proofs.Items

/-!
# The parser accepts the grammar

`parse_eq_ok_iff`: the parser gives a signature for a text exactly if the text is written in the
grammar and its wording means that signature. Blanks are trimmed off the whole text before
anything is read, so the name and what follows it are looked for in a shorter text than the
grammar speaks of; `TypeWritten.trimEnd` and `TailWritten.trimEnd` say that what was written
before the trimming is written after it, and the `append` lemmas lead back.
-/

namespace Switchboard.Signature

open Text

/-! ## The result type -/

/-- What follows the parameter list or the name is accepted exactly if it is an arrow and a type,
    or nothing. -/
theorem returnsOfRest_iff {s : List Char} {k : Kind} :
    returnsOfRest (trimStart s) = .ok k ↔ ∃ type?, TypeWritten type? s ∧ Returns type? k := by
  constructor
  · intro h
    obtain ⟨gap, hg, hs⟩ := exists_trimStart s
    rw [hs]
    unfold returnsOfRest at h
    split at h
    case h_1 hnil =>
        cases h
        rw [hnil, List.append_nil]
        exact ⟨none, .absent hg, rfl⟩
    case h_2 rest harrow =>
        dsimp only at h
        split at h
        case isTrue => cases h
        case isFalse =>
            split at h
            case isTrue hi =>
                split at h
                case h_1 k' hk =>
                    cases h
                    rw [harrow]
                    exact ⟨some (trim rest), .present hg (padded_trim rest),
                      typeToken_iff.mpr ⟨hi, hk⟩⟩
                case h_2 => cases h
            case isFalse => cases h
    case h_3 => cases h
  · rintro ⟨type?, hs, hk⟩
    cases hs with
    | absent hg =>
        rw [trimStart_of_blank hg, show k = .any from hk]
        rfl
    | @present gap type s hg hs =>
        have ht : TypeToken type k := hk
        have hne : ¬ type.isEmpty = true := by simpa using ht.ident.1
        obtain ⟨hi, hk⟩ := typeToken_iff.mp ht
        rw [trimStart_append_cons hg (by decide), returnsOfRest, hs.trim_eq ht.ident.solid,
          if_neg hne, if_pos hi, hk]

/-- Trimming behind a type that counts leaves it written. -/
theorem TypeWritten.trimEnd {type? : Option (List Char)} {s : List Char} {k : Kind}
    (h : TypeWritten type? s) (hk : Returns type? k) : TypeWritten type? (trimEnd s) := by
  cases h with
  | absent hg =>
      rw [trimEnd_of_blank hg]
      exact .absent blank_nil
  | @present gap type s hg hs =>
      have ht : TypeToken type k := hk
      have hpad : Padded type (Text.trimEnd s) := by
        have h := padded_trim (Text.trimEnd s)
        rwa [trim_trimEnd, hs.trim_eq ht.ident.solid] at h
      have hend : Text.trimEnd ('>' :: s) = '>' :: Text.trimEnd s :=
        trimEnd_append_cons [] s (by decide)
      rw [trimEnd_append_cons _ _ (by decide), hend]
      exact .present hg hpad

/-- Blanks behind it leave a type written. -/
theorem TypeWritten.append {type? : Option (List Char)} {s back : List Char}
    (h : TypeWritten type? s) (hb : Blank back) : TypeWritten type? (s ++ back) := by
  cases h with
  | absent hg => exact .absent (hg.append hb)
  | present hg hs =>
      rw [List.append_assoc, List.cons_append, List.cons_append]
      exact .present hg (hs.append_right hb)

/-! ## Behind the name -/

/-- What is written behind a name may lose the blanks at its end. -/
theorem TailWritten.trimEnd {items? : Option (List Item)} {type? : Option (List Char)}
    {s : List Char} {k : Kind} (h : TailWritten items? type? s) (hk : Returns type? k) :
    TailWritten items? type? (trimEnd s) := by
  cases h with
  | plain hs => exact .plain (hs.trimEnd hk)
  | listed hg hs first ht =>
      rw [trimEnd_append_cons _ _ (by decide), trimEnd_append_cons _ _ (by decide)]
      exact .listed hg hs first (ht.trimEnd hk)

theorem TailWritten.append {items? : Option (List Item)} {type? : Option (List Char)}
    {s back : List Char} (h : TailWritten items? type? s) (hb : Blank back) :
    TailWritten items? type? (s ++ back) := by
  cases h with
  | plain hs => exact .plain (hs.append hb)
  | @listed items _ gap s t hg hs first ht =>
      have heq : gap ++ '(' :: (s ++ ')' :: t) ++ back = gap ++ '(' :: (s ++ ')' :: (t ++ back)) := by
        simp
      rw [heq]
      exact .listed hg hs first (ht.append hb)

/-- Reads everything behind the name, from the first character that is no blank. -/
def partsOfTail (hints : List String) : List Char → Except Defect (Option (List Parameter) × Kind)
  | '(' :: inner =>
    match splitFirst? ')' inner with
    | none => .error .unclosedParameters
    | some (list, rest) => do
      let parameters ← parametersOfList hints list
      let returns ← returnsOfRest (Text.trimStart rest)
      .ok (some parameters, returns)
  | rest => do
    let returns ← returnsOfRest rest
    .ok (none, returns)

/-- The parser reads the longest name and then everything behind it. -/
theorem parse_eq_partsOfTail (text : String) (hints : List String) :
    parse text hints =
      if ((trim text.toList).takeWhile isNameChar).isEmpty then .error .missingName
      else
        (partsOfTail hints (trimStart ((trim text.toList).dropWhile isNameChar))).map fun parts =>
          ⟨String.ofList ((trim text.toList).takeWhile isNameChar), parts.1, parts.2⟩ := by
  unfold parse
  dsimp only
  split
  case isTrue => rfl
  case isFalse =>
      generalize trimStart ((trim text.toList).dropWhile isNameChar) = rest
      split
      case h_1 inner =>
          rw [partsOfTail]
          cases splitFirst? ')' inner with
          | none => rfl
          | some parts =>
              dsimp only
              cases parametersOfList hints parts.1 with
              | error d => rfl
              | ok ps => cases returnsOfRest (trimStart parts.2) <;> rfl
      case h_2 hother =>
          rw [partsOfTail.eq_2 hints rest hother]
          cases returnsOfRest rest <;> rfl

/-- Everything behind the name is accepted exactly if it is written in the grammar. -/
theorem partsOfTail_iff {hints : List String} {s : List Char} {ps? : Option (List Parameter)}
    {k : Kind} :
    partsOfTail hints (trimStart s) = .ok (ps?, k) ↔
      ∃ items? type?, TailWritten items? type? s ∧ Option.Rel (Declares hints) items? ps? ∧
        Returns type? k := by
  constructor
  · intro h
    obtain ⟨gap, hg, hs⟩ := exists_trimStart s
    unfold partsOfTail at h
    split at h
    case h_1 inner hopen =>
        split at h
        case h_1 => cases h
        case h_2 list rest hsplit =>
            obtain ⟨rfl, first⟩ := eq_of_splitFirst?_eq_some hsplit
            obtain ⟨ps, hlist, h⟩ := bind_eq_ok_iff.mp h
            obtain ⟨k', hrest, h⟩ := bind_eq_ok_iff.mp h
            cases h
            obtain ⟨items, hitems, hdecl⟩ := parametersOfList_iff.mp hlist
            obtain ⟨type?, htype, hk⟩ := returnsOfRest_iff.mp hrest
            rw [hs, hopen]
            exact ⟨some items, type?, .listed hg hitems first htype, .some hdecl, hk⟩
    case h_2 =>
        obtain ⟨k', hrest, h⟩ := bind_eq_ok_iff.mp h
        cases h
        obtain ⟨type?, htype, hk⟩ := returnsOfRest_iff.mp hrest
        exact ⟨none, type?, .plain htype, .none, hk⟩
  · rintro ⟨items?, type?, hs, hdecl, hk⟩
    cases hs with
    | plain htype =>
        cases hdecl
        have hrest := returnsOfRest_iff.mpr ⟨type?, htype, hk⟩
        unfold partsOfTail
        -- an opening parenthesis would have been refused as a result type
        split
        case h_1 inner hopen =>
            rw [hopen] at hrest
            cases hrest
        case h_2 =>
            rw [hrest]
            rfl
    | @listed items _ gap list rest hg hitems first htype =>
        cases hdecl with
        | some hdecl =>
            have hlist := parametersOfList_iff.mpr ⟨items, hitems, hdecl⟩
            have hrest := returnsOfRest_iff.mpr ⟨type?, htype, hk⟩
            rw [trimStart_append_cons hg (by decide), partsOfTail, splitFirst?_append _ first]
            dsimp only
            rw [hlist, hrest]
            rfl

/-! ## Whole signatures -/

/-- The name of a written signature, cut from the trimmed text, and what the trimming leaves
    behind it. -/
theorem takeWhile_dropWhile_of_written {front name tail : List Char} (hf : Blank front)
    (hne : name ≠ []) (hlong : LongestPrefix isNameChar name (name ++ tail)) :
    (trim (front ++ (name ++ tail))).takeWhile isNameChar = name ∧
      (trim (front ++ (name ++ tail))).dropWhile isNameChar = trimEnd tail := by
  obtain ⟨within, stop⟩ := longestPrefix_append_iff.mp hlong
  have hsolid : Solid name := fun c hc => isBlank_of_isNameChar (within c hc)
  rw [trim_append_solid hf hne hsolid, List.takeWhile_append_of_pos within,
    List.dropWhile_append_of_pos within]
  -- what follows the name still begins with a character outside once it is trimmed behind
  obtain ⟨back, -, htail⟩ := exists_trimEnd tail
  rw [htail] at stop
  cases hend : trimEnd tail with
  | nil => simp
  | cons c rest =>
      have hc : isNameChar c = false := stop c (by rw [hend]; rfl)
      simp [hc]

/-- The longest name of a trimmed text is the longest in the text as it stands. -/
theorem longestPrefix_takeWhile_append (s : List Char) {back : List Char} (hb : Blank back) :
    LongestPrefix isNameChar (s.takeWhile isNameChar)
      (s.takeWhile isNameChar ++ (s.dropWhile isNameChar ++ back)) := by
  refine longestPrefix_append_iff.mpr ⟨fun c hc => List.mem_takeWhile_imp hc, fun c hc => ?_⟩
  cases hmore : s.dropWhile isNameChar with
  | nil =>
      rw [hmore, List.nil_append] at hc
      by_contra hname
      rw [Bool.not_eq_false] at hname
      have hblank := hb c (List.mem_of_mem_head? hc)
      rw [isBlank_of_isNameChar hname] at hblank
      cases hblank
  | cons d more =>
      have hd := List.head?_dropWhile_not isNameChar s
      rw [hmore] at hc hd
      cases hc
      simpa using hd

/-- The parser gives a signature for a text exactly if the text is written in the grammar and
    its wording means that signature under the suggested names. -/
theorem parse_eq_ok_iff (text : String) (hints : List String) (s : Signature) :
    parse text hints = .ok s ↔
      ∃ w : Wording, w.Written text.toList ∧ w.Means hints s := by
  rw [parse_eq_partsOfTail]
  constructor
  · intro h
    split at h
    case isTrue => cases h
    case isFalse hne =>
        cases hparts : partsOfTail hints
            (trimStart ((trim text.toList).dropWhile isNameChar)) with
        | error d =>
            rw [hparts] at h
            cases h
        | ok parts =>
            rw [hparts] at h
            cases h
            obtain ⟨items?, type?, htail, hdecl, hk⟩ := partsOfTail_iff.mp hparts
            -- the text is what was read with the trimmed blanks put back
            obtain ⟨front, back, hf, hb, htext⟩ := padded_trim text.toList
            rw [← List.takeWhile_append_dropWhile (p := isNameChar) (l := trim text.toList),
              List.append_assoc, List.append_assoc] at htext
            refine ⟨⟨(trim text.toList).takeWhile isNameChar, items?, type?⟩,
              ⟨front, _, hf, htext, ?_, longestPrefix_takeWhile_append _ hb, htail.append hb⟩,
              rfl, hdecl, hk⟩
            simpa using hne
  · rintro ⟨⟨name, items?, type?⟩, ⟨front, tail, hf, htext, hne, hlong, htail⟩, hname, hdecl, hk⟩
    obtain ⟨htake, hdrop⟩ := takeWhile_dropWhile_of_written hf hne hlong
    have hparts := partsOfTail_iff.mpr ⟨items?, type?, htail.trimEnd hk, hdecl, hk⟩
    have hne : ¬ name.isEmpty = true := by simpa using hne
    rw [htext, htake, hdrop, if_neg hne, hparts]
    show Except.ok _ = Except.ok s
    rw [← hname]

/-- The dash in front of the arrow is read as part of the name. -/
example : parse "m->Any" [] = .error (.unexpectedInput ">Any") := by decide

end Switchboard.Signature
