import Switchboard.Json.Printer
import Switchboard.Proofs.Values

/-!
# Tokens that read back

Every token is read back from the text that it is written with, whatever
follows it. Numbers are the exception: a digit behind a number would be taken
for a part of it. In the text of a value a number is always followed by a
comma, a closing mark or nothing, so there is no need for blanks.

`Lexes` says of a sequence of tokens that it is read back as a whole, in front
of anything that no number runs on into. It holds of the tokens of a value
because it holds of those of its parts.
-/

namespace Switchboard

/-! ## Strings -/

theorem stringBody?_quote (read rest : List Char) :
    stringBody? read ('"' :: rest) = some (read.reverse, rest) := by
  rw [stringBody?]

/-- An escape is read as the character that it stands for. -/
theorem stringBody?_escape {read esc rest : List Char} {c : Char}
    (h : escape? esc = some (c, rest)) :
    stringBody? read ('\\' :: esc) = stringBody? (c :: read) rest := by
  rw [stringBody?, h]

theorem stringBody?_plain {c : Char} (hquote : c ≠ '"') (hback : c ≠ '\\') (hplain : ¬c.toNat < 32)
    (read rest : List Char) : stringBody? read (c :: rest) = stringBody? (c :: read) rest := by
  rw [stringBody?]
  · exact if_neg hplain
  · exact hquote
  · exact hback

theorem hexValue?_hexDigit : ∀ n < 16, hexValue? (hexDigit n) = some n := by decide

/-- A control character is read back from its four hexadecimal digits. -/
theorem escape?_hex {c : Char} (hc : c.toNat < 32) (rest : List Char) :
    escape? ('u' :: '0' :: '0' :: hexDigit (c.toNat / 16) :: hexDigit (c.toNat % 16) :: rest)
      = some (c, rest) := by
  have hunit : hexUnit? ('0' :: '0' :: hexDigit (c.toNat / 16) :: hexDigit (c.toNat % 16) :: rest)
      = some (c.toNat, rest) := by
    have hzero : hexValue? '0' = some 0 := by decide
    have hvalue : ((0 * 16 + 0) * 16 + c.toNat / 16) * 16 + c.toNat % 16 = c.toNat := by omega
    unfold hexUnit?
    simp only [hzero, hexValue?_hexDigit _ (show c.toNat / 16 < 16 by omega),
      hexValue?_hexDigit _ (show c.toNat % 16 < 16 by omega), Option.bind_eq_bind, Option.bind_some,
      hvalue]
  show hexEscape? _ = _
  unfold hexEscape?
  rw [hunit]
  dsimp only
  rw [if_neg (by omega), if_neg (by omega), Char.ofNat_toNat]

/-- A character is read back from the way in which it is written in a string. -/
theorem stringBody?_escapedChar (c : Char) (read rest : List Char) :
    stringBody? read (escapedChar c ++ rest) = stringBody? (c :: read) rest := by
  unfold escapedChar
  have hcode {n : ℕ} (h : c.toNat = n) : Char.ofNat n = c := by rw [← h, Char.ofNat_toNat]
  split_ifs with hmark hfeed hreturn htab hbell hform hcontrol
  · rcases hmark with rfl | rfl
    · exact stringBody?_escape rfl
    · exact stringBody?_escape rfl
  · exact stringBody?_escape (congrArg some (congrArg (·, rest) hfeed.symm))
  · exact stringBody?_escape (congrArg some (congrArg (·, rest) hreturn.symm))
  · exact stringBody?_escape (congrArg some (congrArg (·, rest) htab.symm))
  · exact stringBody?_escape (congrArg some (congrArg (·, rest) (hcode hbell)))
  · exact stringBody?_escape (congrArg some (congrArg (·, rest) (hcode hform)))
  · exact stringBody?_escape (escape?_hex hcontrol rest)
  · exact stringBody?_plain (fun h => hmark (Or.inl h)) (fun h => hmark (Or.inr h)) hcontrol
      read rest

/-- A text is read back from between its quotes. -/
theorem stringBody?_flatMap (cs read rest : List Char) :
    stringBody? read (cs.flatMap escapedChar ++ '"' :: rest) = some (read.reverse ++ cs, rest) := by
  induction cs generalizing read with
  | nil =>
      rw [List.append_nil]
      exact stringBody?_quote read rest
  | cons c cs ih =>
      rw [List.flatMap_cons, List.append_assoc, stringBody?_escapedChar, ih, List.reverse_cons,
        List.append_assoc]
      rfl

/-! ## Single tokens -/

/-- A text that a token in front of it does not run on into. -/
def Token.Ends (t : Token) (rest : List Char) : Prop :=
  match t with
  | .num n => n.Valid ∧ NumeralEnd rest
  | _ => True

/-- A number is read back. No other token begins with a sign or a digit. -/
theorem token?_of_numeral? {cs rest : List Char} {n : Number}
    (h : numeral? cs = some (n, rest)) : token? cs = some (.num n, rest) := by
  unfold token?
  split
  case h_11 =>
    rw [h]
    rfl
  all_goals exact nomatch h

/-- A token is read back. -/
theorem token?_append {t : Token} {rest : List Char} (h : t.Ends rest) :
    token? (t.chars ++ rest) = some (t, rest) := by
  cases t with
  | num n => exact token?_of_numeral? (numeral?_append h.1 h.2)
  | str s =>
      show token? ('"' :: (s.toList.flatMap escapedChar ++ ['"']) ++ rest) = _
      show (stringBody? [] (s.toList.flatMap escapedChar ++ ['"'] ++ rest)).map _ = _
      rw [List.append_assoc, List.singleton_append, stringBody?_flatMap]
      show some (Token.str (String.ofList s.toList), rest) = _
      rw [String.ofList_toList]
  | bool b => cases b <;> rfl
  | null => rfl
  | openArray => rfl
  | closeArray => rfl
  | openObject => rfl
  | closeObject => rfl
  | comma => rfl
  | colon => rfl

/-! ## Sequences of tokens -/

/-- A token at the front of a text is taken. It does not begin with a blank. -/
theorem lexFrom_token {read : List Token} {cs rest : List Char} {t : Token}
    (h : token? cs = some (t, rest)) : lexFrom read cs = lexFrom (t :: read) rest := by
  cases cs with
  | nil => exact nomatch h
  | cons c cs =>
      have hblank : ¬isJsonBlank c = true := by
        intro hblank
        unfold isJsonBlank at hblank
        simp only [Bool.or_eq_true, decide_eq_true_eq] at hblank
        rcases hblank with ((rfl | rfl) | rfl) | rfl
        all_goals exact nomatch h
      rw [lexFrom, if_neg hblank, h]

/-- A sequence of tokens is read back in front of all that no number runs on into. -/
def Lexes (ts : List Token) : Prop :=
  ∀ read rest, NumeralEnd rest →
    lexFrom read (ts.flatMap Token.chars ++ rest) = lexFrom (ts.reverse ++ read) rest

/-- A sequence of tokens that no number in front of it runs on into. -/
def Stops (ts : List Token) : Prop := ∀ rest, NumeralEnd (ts.flatMap Token.chars ++ rest)

/-- A token that runs on into nothing is read back in front of others. -/
theorem Lexes.cons {t : Token} {ts : List Token} (ht : ∀ rest, t.Ends rest) (hts : Lexes ts) :
    Lexes (t :: ts) := by
  intro read rest hrest
  rw [List.flatMap_cons, List.append_assoc, lexFrom_token (token?_append (ht _)),
    hts _ _ hrest, List.reverse_cons, List.append_assoc]
  rfl

/-- Sequences are read back one after the other if no number runs on into the second. -/
theorem Lexes.append {as bs : List Token} (ha : Lexes as) (hb : Lexes bs) (hstops : Stops bs) :
    Lexes (as ++ bs) := by
  intro read rest hrest
  rw [List.flatMap_append, List.append_assoc, ha _ _ (hstops rest), hb _ _ hrest,
    List.reverse_append, List.append_assoc]

/-- A token that is no number is read back whatever follows it. -/
theorem lexes_single {t : Token} (ht : ∀ rest, NumeralEnd rest → t.Ends rest) : Lexes [t] := by
  intro read rest hrest
  rw [List.flatMap_singleton]
  exact lexFrom_token (token?_append (ht rest hrest))

/-- A number runs on only into a digit, a point or an exponent. -/
theorem stops_cons {t : Token} {c : Char} {cs : List Char} (ht : t.chars = c :: cs)
    (hc : c.isDigit = false ∧ c ≠ '.' ∧ c ≠ 'e' ∧ c ≠ 'E') (ts : List Token) : Stops (t :: ts) := by
  intro rest
  rw [List.flatMap_cons, ht]
  rintro d ⟨⟩
  exact hc

/-! ## Tokens of a value -/

namespace Json

theorem laterItemTokens_stops (items : List Json) : Stops (laterItemTokens items) := by
  cases items with
  | nil => exact stops_cons rfl (by decide) _
  | cons v rest => exact stops_cons rfl (by decide) _

theorem laterMemberTokens_stops (members : List (String × Json)) :
    Stops (laterMemberTokens members) := by
  cases members with
  | nil => exact stops_cons rfl (by decide) _
  | cons kv rest => exact stops_cons rfl (by decide) _

theorem laterItemTokens_lexes {items : List Json} (h : ∀ v ∈ items, Lexes v.tokens) :
    Lexes (laterItemTokens items) := by
  induction items with
  | nil => exact lexes_single fun _ _ => trivial
  | cons v rest ih =>
      obtain ⟨hv, hrest⟩ := List.forall_mem_cons.mp h
      exact .cons (fun _ => trivial) (hv.append (ih hrest) (laterItemTokens_stops rest))

theorem laterMemberTokens_lexes {members : List (String × Json)}
    (h : ∀ kv ∈ members, Lexes kv.2.tokens) : Lexes (laterMemberTokens members) := by
  induction members with
  | nil => exact lexes_single fun _ _ => trivial
  | cons kv rest ih =>
      obtain ⟨hkv, hrest⟩ := List.forall_mem_cons.mp h
      exact .cons (fun _ => trivial) (.cons (fun _ => trivial) (.cons (fun _ => trivial)
        (hkv.append (ih hrest) (laterMemberTokens_stops rest))))

/-- The tokens of a value are read back. -/
theorem Sound.tokens_lexes {v : Json} (hv : v.Sound) : Lexes v.tokens := by
  induction hv with
  | null => exact lexes_single fun _ _ => trivial
  | bool b => exact lexes_single fun _ _ => trivial
  | num h => exact lexes_single fun _ hrest => ⟨h, hrest⟩
  | str s => exact lexes_single fun _ _ => trivial
  | @arr items _ ih =>
      refine .cons (fun _ => trivial) ?_
      cases items with
      | nil => exact lexes_single fun _ _ => trivial
      | cons v rest =>
          obtain ⟨hv, hrest⟩ := List.forall_mem_cons.mp ih
          exact hv.append (laterItemTokens_lexes hrest) (laterItemTokens_stops rest)
  | @obj members _ ih =>
      refine .cons (fun _ => trivial) ?_
      cases members with
      | nil => exact lexes_single fun _ _ => trivial
      | cons kv rest =>
          obtain ⟨hkv, hrest⟩ := List.forall_mem_cons.mp ih
          exact .cons (fun _ => trivial) (.cons (fun _ => trivial)
            (hkv.append (laterMemberTokens_lexes hrest) (laterMemberTokens_stops rest)))

/-- The text of a value has the tokens that it was written with. -/
theorem Sound.lex_tokens {v : Json} (hv : v.Sound) :
    lex (v.tokens.flatMap Token.chars) = some v.tokens := by
  have h := hv.tokens_lexes [] [] nofun
  rw [List.append_nil, List.append_nil] at h
  unfold lex
  rw [h, lexFrom, List.reverse_reverse]

end Json

end Switchboard
