import Switchboard.Client.Dial
import Switchboard.Proofs.Groundwork
import Switchboard.Proofs.Padding
import Switchboard.Server.Draft

/-!
# Callers who present a token

A client writes its token into a header behind the word `Bearer` and a blank. The
header travels as bytes, and blanks at the ends of a value may get lost on the
way. The server reads the value as text, takes what stands behind the word and the
blank, trims it, and compares it with the token that it expects.

What goes into the header as text comes out of it as text only if it is PLAIN: all
of it is visible in ASCII, a space or a tab. For such a token the two views of a
value, bytes and characters, agree (`text_of_octets`), and what the transport does
to the bytes is what it does to the text. Then the loss of blanks and the trimming
are seen to come to the same (`trim_of_afterScheme?`), with one exception: of an
empty token the blank behind the word is the end of the value, and may be lost
itself.
-/

namespace Switchboard

namespace Text

/-- A character is visible in ASCII, a space or a tab. -/
def IsPlain (c : Char) : Prop := c.toNat = 0x09 ∨ 0x20 ≤ c.toNat ∧ c.toNat < 0x7F

/-- A text is made of plain characters only. -/
def Plain (s : List Char) : Prop := ∀ c ∈ s, IsPlain c

instance (c : Char) : Decidable (IsPlain c) :=
  inferInstanceAs (Decidable (c.toNat = 0x09 ∨ 0x20 ≤ c.toNat ∧ c.toNat < 0x7F))

instance (s : List Char) : Decidable (Plain s) := List.decidableBAll IsPlain s

/-- The bytes of a text. -/
def octets (s : List Char) : List UInt8 := s.flatMap String.utf8EncodeChar

/-- The characters that bytes stand for one by one. -/
def ofOctets (bytes : List UInt8) : List Char := bytes.map fun b => Char.ofNat b.toNat

@[simp] theorem ofOctets_append (a b : List UInt8) : ofOctets (a ++ b) = ofOctets a ++ ofOctets b :=
  List.map_append

theorem plain_append {s t : List Char} : Plain (s ++ t) ↔ Plain s ∧ Plain t :=
  List.forall_mem_append

/-! ## Bytes of a text -/

theorem toList_loop (bytes : ByteArray) (i : Nat) (r : List UInt8) :
    ByteArray.toList.loop bytes i r = r.reverse ++ bytes.data.toList.drop i := by
  fun_induction ByteArray.toList.loop bytes i r with
  | case1 i r hi ih =>
      have hlength : i < bytes.data.toList.length := by simpa using hi
      have hget : bytes.get! i = bytes.data[i]! := by cases bytes; rfl
      rw [ih, List.drop_eq_getElem_cons hlength, hget, getElem!_pos bytes.data i hi]
      simp
  | case2 i r hi =>
      rw [List.drop_eq_nil_of_le (by simpa using Nat.le_of_not_lt hi)]
      simp

/-- The bytes of a text are those of its characters. -/
theorem toList_toUTF8 (s : String) : s.toUTF8.toList = octets s.toList := by
  have hbytes : s.toUTF8 = (octets s.toList).toByteArray := String.utf8Encode_toList.symm
  rw [hbytes, ByteArray.toList, toList_loop]
  simp

theorem isTextByte_iff {b : UInt8} :
    Header.isTextByte b = true ↔ b.toNat = 0x09 ∨ 0x20 ≤ b.toNat ∧ b.toNat < 0x7F := by
  simp [Header.isTextByte, UInt8.le_iff_toNat_le, UInt8.lt_iff_toNat_lt, ← UInt8.toNat_inj]

theorem isValueByte_of_isTextByte {b : UInt8} (h : Header.isTextByte b = true) :
    Header.isValueByte b = true := by
  have htext := isTextByte_iff.mp h
  simp only [Header.isValueByte, UInt8.le_iff_toNat_le, ← UInt8.toNat_inj, ne_eq,
    decide_eq_true_eq, Bool.or_eq_true, Bool.and_eq_true, decide_not, Bool.not_eq_true',
    decide_eq_false_iff_not, UInt8.reduceToNat]
  omega

theorem utf8EncodeChar_of_le {c : Char} (h : c.toNat ≤ 127) :
    String.utf8EncodeChar c = [UInt8.ofNat c.toNat] := by
  rw [String.utf8EncodeChar, if_pos (show c.val.toNat ≤ 127 from h)]
  rfl

/-- A character outside ASCII begins with a byte outside ASCII. -/
theorem exists_high_byte {c : Char} (h : 127 < c.toNat) :
    ∃ b ∈ String.utf8EncodeChar c, 128 ≤ b.toNat := by
  have hv : ¬ c.val.toNat ≤ 127 := Nat.not_le.mpr h
  unfold String.utf8EncodeChar
  simp only [hv, if_false]
  split
  case isTrue => exact ⟨_, List.mem_cons_self, by simp; omega⟩
  case isFalse =>
      split
      case isTrue => exact ⟨_, List.mem_cons_self, by simp; omega⟩
      case isFalse => exact ⟨_, List.mem_cons_self, by simp; omega⟩

/-- The bytes of a character can be read as text exactly if it is plain. -/
theorem text_utf8EncodeChar_iff {c : Char} :
    (∀ b ∈ String.utf8EncodeChar c, Header.isTextByte b = true) ↔ IsPlain c := by
  by_cases hc : c.toNat ≤ 127
  · have hbyte : (UInt8.ofNat c.toNat).toNat = c.toNat := by simp; omega
    rw [utf8EncodeChar_of_le hc, List.forall_mem_singleton, isTextByte_iff, hbyte]
    rfl
  · constructor
    · intro htext
      obtain ⟨b, hb, hhigh⟩ := exists_high_byte (Nat.lt_of_not_le hc)
      have hlow := isTextByte_iff.mp (htext b hb)
      omega
    · intro hplain
      unfold IsPlain at hplain
      omega

/-- The bytes of a text can be read as text exactly if it is plain. -/
theorem text_octets_iff {s : List Char} :
    (octets s).all Header.isTextByte = true ↔ Plain s := by
  rw [List.all_eq_true]
  unfold octets Plain
  constructor
  · intro htext c hc
    exact text_utf8EncodeChar_iff.mp fun b hb => htext b (List.mem_flatMap_of_mem hc hb)
  · intro hplain b hb
    obtain ⟨c, hc, hb⟩ := List.mem_flatMap.mp hb
    exact text_utf8EncodeChar_iff.mpr (hplain c hc) b hb

/-- A plain text is read from its bytes one by one. -/
theorem ofOctets_octets {s : List Char} (h : Plain s) : ofOctets (octets s) = s := by
  induction s with
  | nil => rfl
  | cons c s ih =>
      obtain ⟨hc, hs⟩ := List.forall_mem_cons.mp h
      have hle : c.toNat ≤ 127 := by unfold IsPlain at hc; omega
      have hbyte : (UInt8.ofNat c.toNat).toNat = c.toNat := by simp; omega
      have hchar : ofOctets (String.utf8EncodeChar c) = [c] := by
        rw [utf8EncodeChar_of_le hle, ofOctets, List.map_singleton, hbyte, Char.ofNat_toNat]
      calc ofOctets (octets (c :: s))
          = ofOctets (String.utf8EncodeChar c) ++ ofOctets (octets s) := by
            rw [← ofOctets_append]
            rfl
        _ = c :: s := by rw [hchar, ih hs, List.singleton_append]

end Text

/-! ## What arrives -/

/-- Bytes that are spaces and tabs only, or none at all. -/
def Header.BlankBytes (bytes : List UInt8) : Prop := ∀ b ∈ bytes, b = 0x20 ∨ b = 0x09

/-- A header arrives as another one: the name is the same, and of the value blanks at the ends may
    be lost. -/
structure Header.ArrivesAs (sent got : Header) : Prop where
  name_eq : got.name = sent.name
  value_eq : ∃ front back, BlankBytes front ∧ BlankBytes back
    ∧ sent.value = front ++ got.value ++ back

/-- The headers of a client arrive among others, of which none presents a token: the
    first one that does is the client's, if it sent one. -/
def Headers.ArriveAs (sent got : Headers) : Prop :=
  Option.Rel Header.ArrivesAs (sent.find? "authorization") (got.find? "authorization")

/-- The blank behind the word `Bearer` stands in the value that counts. -/
def Headers.Announce (headers : Headers) : Prop :=
  ∃ h text, headers.find? "authorization" = some h ∧ h.text? = some text
    ∧ BearerToken.scheme <+: text

/-- The name of the header is in lower case as it stands. -/
theorem toLower_authorization :
    ("authorization" : String).map Char.toLower = "authorization" := by
  decide +kernel

/-- A value in front is the one that counts. -/
theorem Headers.find?_cons (value : List UInt8) (others : Headers) :
    Headers.find? (⟨"authorization", value⟩ :: others) "authorization"
      = some ⟨"authorization", value⟩ := by
  rw [Headers.find?, toLower_authorization]
  exact List.find?_cons_of_pos (decide_eq_true rfl)

/-- A value in front arrives as another one in front. -/
theorem Headers.arriveAs_cons {value value' : List UInt8} (sent got : Headers)
    (h : Header.ArrivesAs ⟨"authorization", value⟩ ⟨"authorization", value'⟩) :
    Headers.ArriveAs (⟨"authorization", value⟩ :: sent) (⟨"authorization", value'⟩ :: got) := by
  rw [Headers.ArriveAs, find?_cons, find?_cons]
  exact .some h

namespace Header

theorem ArrivesAs.refl (h : Header) : h.ArrivesAs h :=
  ⟨rfl, [], [], List.forall_mem_nil _, List.forall_mem_nil _, (List.append_nil _).symm⟩

theorem text?_eq (h : Header) :
    h.text? = if h.value.all isTextByte then some (Text.ofOctets h.value) else none := rfl

theorem BlankBytes.all_text {bytes : List UInt8} (h : BlankBytes bytes) :
    bytes.all isTextByte = true := by
  rw [List.all_eq_true]
  intro b hb
  rcases h b hb with rfl | rfl <;> rfl

theorem BlankBytes.blank {bytes : List UInt8} (h : BlankBytes bytes) :
    Text.Blank (Text.ofOctets bytes) := by
  intro c hc
  obtain ⟨b, hb, rfl⟩ := List.mem_map.mp hc
  rcases h b hb with rfl | rfl <;> decide

/-- A header can be read as text exactly if it could be when it was sent. -/
theorem ArrivesAs.text_iff {sent got : Header} (h : sent.ArrivesAs got) :
    got.value.all isTextByte = true ↔ sent.value.all isTextByte = true := by
  obtain ⟨front, back, hfront, hback, hvalue⟩ := h.value_eq
  rw [hvalue, List.all_append, List.all_append, hfront.all_text, hback.all_text]
  simp

end Header

namespace BearerToken

variable {t u : String} {h sent got : Header}

/-! ## The text of a value -/

theorem plain_scheme : Text.Plain scheme := by decide

/-- The scheme is taken off where it stands in front, and nothing is taken off elsewhere. -/
theorem afterScheme?_eq_some_iff {text rest : List Char} :
    afterScheme? text = some rest ↔ text = scheme ++ rest := by
  unfold afterScheme?
  split
  case isTrue hprefix =>
      obtain ⟨tail, rfl⟩ := List.isPrefixOf_iff_prefix.mp hprefix
      simp
  case isFalse hprefix =>
      refine ⟨(nomatch ·), fun h => absurd ?_ hprefix⟩
      rw [h]
      exact List.isPrefixOf_iff_prefix.mpr (List.prefix_append _ _)

/-- The token that headers present, from the text of the value that counts. -/
theorem accepts_iff {headers : Headers} : (BearerToken.mk t).accepts headers = true ↔
    ∃ h rest, headers.find? "authorization" = some h ∧ h.text? = some (scheme ++ rest)
      ∧ Text.trim rest = t.toList := by
  have htoken : ∀ rest : List Char, String.ofList rest = t ↔ rest = t.toList := by
    intro rest
    rw [← String.toList_inj, String.toList_ofList]
  rw [show (BearerToken.mk t).accepts headers = decide (presented? headers = some t) from rfl,
    decide_eq_true_iff]
  simp only [presented?, Option.bind_eq_bind, Option.bind_eq_some_iff, afterScheme?_eq_some_iff,
    Option.pure_def, Option.some.injEq, htoken]
  constructor
  · rintro ⟨h, hfind, text, htext, rest, rfl, htrim⟩
    exact ⟨h, rest, hfind, htext, htrim⟩
  · rintro ⟨h, rest, hfind, htext, htrim⟩
    exact ⟨h, hfind, _, htext, rest, rfl, htrim⟩

theorem octets_value (u : String) :
    ("Bearer " ++ u).toUTF8.toList = Text.octets (scheme ++ u.toList) := by
  rw [Text.toList_toUTF8, String.toList_append]
  rfl

/-- The header of a client holds the bytes of the word, the blank and its token. -/
theorem eq_of_header? (h : header? u = some sent) :
    sent = ⟨"authorization", Text.octets (scheme ++ u.toList)⟩ := by
  unfold header? Header.make? at h
  split at h
  case isTrue =>
      obtain ⟨value, hvalue, rfl⟩ := Option.map_eq_some_iff.mp h
      simp only [Header.value?, octets_value, Option.ite_none_right_eq_some,
        Option.some.injEq] at hvalue
      rw [toLower_authorization, ← hvalue.2]
  case isFalse => exact nomatch h

/-- A plain token can be put into a header. -/
theorem exists_header?_of_plain (h : Text.Plain u.toList) : ∃ sent, header? u = some sent := by
  have hname : Header.isName "authorization" = true := by decide +kernel
  have hvalue : (Text.octets (scheme ++ u.toList)).all Header.isValueByte = true := by
    have htext := Text.text_octets_iff.mpr (Text.plain_append.mpr ⟨plain_scheme, h⟩)
    rw [List.all_eq_true] at htext ⊢
    exact fun b hb => Text.isValueByte_of_isTextByte (htext b hb)
  unfold header? Header.make? Header.value?
  rw [if_pos hname, octets_value, if_pos hvalue]
  exact ⟨_, rfl⟩

/-- A header that arrives can be read exactly if its token is plain. -/
theorem text_iff_plain (h : header? u = some sent) (harrives : sent.ArrivesAs got) :
    got.value.all Header.isTextByte = true ↔ Text.Plain u.toList := by
  rw [harrives.text_iff, eq_of_header? h, Text.text_octets_iff, Text.plain_append]
  exact and_iff_right plain_scheme

/-- The text that arrives is the one that was sent but for blanks at its end: in front
    it begins with a letter. -/
theorem exists_text_of_arrivesAs (h : header? u = some sent) (harrives : sent.ArrivesAs got)
    (hplain : Text.Plain u.toList) :
    ∃ text back, got.text? = some text ∧ Text.Blank back ∧ scheme ++ u.toList = text ++ back := by
  obtain ⟨front, back, hfront, hback, hvalue⟩ := harrives.value_eq
  have hsent : scheme ++ u.toList
      = Text.ofOctets front ++ Text.ofOctets got.value ++ Text.ofOctets back := by
    rw [← Text.ofOctets_append, ← Text.ofOctets_append, ← hvalue, eq_of_header? h,
      Text.ofOctets_octets (Text.plain_append.mpr ⟨plain_scheme, hplain⟩)]
  have hfront_nil : Text.ofOctets front = [] := by
    cases hchars : Text.ofOctets front with
    | nil => rfl
    | cons c chars =>
        -- the first character would be a blank and the first letter of the word
        rw [hchars] at hsent
        have hc : 'B' = c := (List.cons.inj hsent).1
        have hblank := hfront.blank c (by rw [hchars]; exact List.mem_cons_self)
        rw [← hc] at hblank
        exact absurd hblank (by decide)
  refine ⟨Text.ofOctets got.value, Text.ofOctets back, ?_, hback.blank, ?_⟩
  · rw [Header.text?_eq, if_pos ((text_iff_plain h harrives).mpr hplain)]
  · rw [hsent, hfront_nil, List.nil_append]

/-- Where the word and the blank have arrived, what was lost behind them was going to
    be trimmed. -/
theorem trim_rest {rest back token : List Char} (hback : Text.Blank back)
    (h : scheme ++ token = scheme ++ rest ++ back) : Text.trim rest = Text.trim token := by
  rw [List.append_assoc] at h
  rw [List.append_cancel_left h, Text.trim_append_blank _ hback]

/-- The blank behind the word is lost only together with a token of nothing but
    blanks. -/
theorem scheme_prefix_or_blank {text back token : List Char} (hback : Text.Blank back)
    (h : scheme ++ token = text ++ back) : scheme <+: text ∨ Text.Blank token := by
  rcases List.append_eq_append_iff.mp h with ⟨rest, htext, -⟩ | ⟨lost, -, hlost⟩
  · exact Or.inl ⟨rest, htext.symm⟩
  · exact Or.inr fun c hc => hback c (by rw [hlost]; exact List.mem_append_right _ hc)

/-! ## The verdict -/

/-- A token is sent in one header. -/
theorem exists_header_of_headersOf {sents : Headers} (h : headersOf (some u) = .ok sents) :
    ∃ sent, header? u = some sent ∧ sents = [sent] := by
  unfold headersOf at h
  split at h
  case h_1 => contradiction
  case h_2 token heq =>
      obtain rfl := Option.some.inj heq
      split at h
      case h_1 sent hsent => exact ⟨sent, hsent, (Except.ok.inj h).symm⟩
      case h_2 => exact nomatch h

/-- Without a token of the client no value that counts arrives. -/
theorem find?_of_arriveAs_nil {gots : Headers} (harrive : Headers.ArriveAs [] gots) :
    gots.find? "authorization" = none := by
  unfold Headers.ArriveAs at harrive
  generalize gots.find? "authorization" = found at harrive ⊢
  cases harrive
  rfl

/-- With a token of the client the value that counts is the one that it sent. -/
theorem find?_of_arriveAs {gots : Headers} (h : header? u = some sent)
    (harrive : Headers.ArriveAs [sent] gots) :
    ∃ got, gots.find? "authorization" = some got ∧ sent.ArrivesAs got := by
  rw [eq_of_header? h] at harrive ⊢
  rw [Headers.ArriveAs, Headers.find?_cons] at harrive
  generalize gots.find? "authorization" = found at harrive ⊢
  cases harrive with
  | some harrives => exact ⟨_, rfl, harrives⟩

/-- A token that a client presents is accepted if it is plain, is the expected one
    without the blanks at its ends, and is not lost together with the blank in front
    of it. -/
theorem accepts_of_arriveAs {sents gots : Headers} (h : headersOf (some u) = .ok sents)
    (harrive : sents.ArriveAs gots) :
    (BearerToken.mk t).accepts gots = true ↔
      Text.Plain u.toList ∧ Text.trim u.toList = t.toList ∧ (t ≠ "" ∨ gots.Announce) := by
  obtain ⟨sent, hsent, rfl⟩ := exists_header_of_headersOf h
  obtain ⟨got, hfind, harrives⟩ := find?_of_arriveAs hsent harrive
  rw [accepts_iff]
  constructor
  · rintro ⟨got', rest, hfind', htext, htrim⟩
    obtain rfl : got = got' := Option.some.inj (hfind.symm.trans hfind')
    -- a header that is not text is never looked into
    have hplain : Text.Plain u.toList := by
      rw [← text_iff_plain hsent harrives]
      by_contra hnot
      rw [Header.text?_eq, if_neg hnot] at htext
      exact nomatch htext
    obtain ⟨text, back, htext', hback, hsplit⟩ := exists_text_of_arrivesAs hsent harrives hplain
    obtain rfl : scheme ++ rest = text := Option.some.inj (htext.symm.trans htext')
    exact ⟨hplain, (trim_rest hback hsplit).symm.trans htrim,
      Or.inr ⟨got, _, hfind, htext, List.prefix_append _ _⟩⟩
  · rintro ⟨hplain, htrim, hkept⟩
    obtain ⟨text, back, htext, hback, hsplit⟩ := exists_text_of_arrivesAs hsent harrives hplain
    -- if the token is blank, its loss may take the end of the scheme with it
    have hprefix : scheme <+: text := by
      rcases hkept with hne | ⟨got', text', hfind', htext', hprefix⟩
      · refine (scheme_prefix_or_blank hback hsplit).resolve_right fun hblank => hne ?_
        rw [← String.toList_inj, ← htrim, Text.trim_of_blank hblank]
        rfl
      · obtain rfl : got = got' := Option.some.inj (hfind.symm.trans hfind')
        obtain rfl : text = text' := Option.some.inj (htext.symm.trans htext')
        exact hprefix
    obtain ⟨rest, rfl⟩ := hprefix
    exact ⟨got, rest, hfind, htext, (trim_rest hback hsplit).trans htrim⟩

end BearerToken

/-! ## Connections -/

namespace Network

variable {n : Network} {target : String} {token? : Option String} {sent : Headers}

/-- A target can be reached: it names an address on which something listens. -/
def Reaches (n : Network) (target : String) : Prop :=
  Target.isRequestable target = true
    ∧ ∃ a, Target.endpoint? target = some a ∧ n.isReachable a = true

/-- A client connects exactly if the address can be reached, a header can be made of its token,
    and the header can be read as text. -/
theorem connect_eq_ok_iff {a : SocketAddress} : n.connect a token? = .ok sent ↔
    n.isReachable a = true ∧ BearerToken.headersOf token? = .ok sent
      ∧ sent.all (fun h => h.text?.isSome) = true := by
  unfold connect
  rw [bind_eq_ok_iff]
  constructor
  · rintro ⟨headers, hheaders, h⟩
    split at h
    case isTrue hboth =>
        obtain rfl := Except.ok.inj h
        obtain ⟨hreach, htext⟩ := Bool.and_eq_true_iff.mp hboth
        exact ⟨hreach, hheaders, htext⟩
    case isFalse => exact nomatch h
  · rintro ⟨hreach, hheaders, htext⟩
    exact ⟨sent, hheaders, if_pos (Bool.and_eq_true_iff.mpr ⟨hreach, htext⟩)⟩

/-- What a connection takes: a target that can be reached, a token that can stand in a
    header, and plain text in that header. -/
theorem dial_eq_ok_iff : n.dial target token? = .ok sent ↔
    n.Reaches target ∧ BearerToken.headersOf token? = .ok sent
      ∧ sent.all (fun h => h.text?.isSome) = true := by
  unfold dial
  constructor
  · intro h
    split at h
    case isTrue hrequestable =>
        split at h
        case h_1 a ha =>
            obtain ⟨hreach, hrest⟩ := connect_eq_ok_iff.mp h
            exact ⟨⟨hrequestable, a, ha, hreach⟩, hrest⟩
        case h_2 =>
            -- the token is looked at even so, but nothing comes of it
            obtain ⟨-, -, h⟩ := bind_eq_ok_iff.mp h
            exact nomatch h
    case isFalse => exact nomatch h
  · rintro ⟨⟨hrequestable, a, ha, hreach⟩, hrest⟩
    rw [if_pos hrequestable, ha]
    exact connect_eq_ok_iff.mpr ⟨hreach, hrest⟩

/-- What a client sends is plain exactly if its token is. -/
theorem all_text_iff_plain (h : BearerToken.headersOf token? = .ok sent) :
    sent.all (fun h => h.text?.isSome) = true ↔ ∀ u ∈ token?, Text.Plain u.toList := by
  cases token? with
  | none =>
      obtain rfl := Except.ok.inj h
      exact iff_of_true rfl fun u hu => nomatch hu
  | some u =>
      obtain ⟨header, hheader, rfl⟩ := BearerToken.exists_header_of_headersOf h
      have hplain := BearerToken.text_iff_plain hheader (Header.ArrivesAs.refl header)
      simp [Header.text?_eq, ← hplain]

end Network

namespace Server

variable {σ : Type}

/-- The verdict on what a client presents, for a server that expects a token. A token of
    a client is accepted exactly if it is plain and is, without the blanks at its ends,
    the expected one; an empty one only if also the blank in front of it arrives. A
    client without a token is not known, and neither is one whose value is not the word
    and the token with blanks around it. Plain tokens can be sent, and no others come
    through to a server. -/
theorem authenticated_iff_token_presented (s : Server σ) (t : String)
    (hs : s.authenticator? = some (BearerToken.mk t).accepts) :
    (∀ token? sent got, BearerToken.headersOf token? = .ok sent → sent.ArriveAs got →
        (s.verdict got = true ↔ ∃ u ∈ token?, Text.Plain u.toList
          ∧ Text.trim u.toList = t.toList ∧ (t ≠ "" ∨ got.Announce)))
      ∧ (∀ (n : Network) target token? sent, n.dial target token? = .ok sent ↔
          n.Reaches target ∧ BearerToken.headersOf token? = .ok sent
            ∧ ∀ u ∈ token?, Text.Plain u.toList)
      ∧ (∀ u : String, Text.Plain u.toList → ∃ sent, BearerToken.headersOf (some u) = .ok sent)
      ∧ ∀ got, s.verdict got = true ↔ Text.trim t.toList = t.toList ∧
          ∃ h pad, got.find? "authorization" = some h
            ∧ h.text? = some (BearerToken.scheme ++ pad) ∧ Text.Padded t.toList pad := by
  have hverdict : ∀ got, s.verdict got = (BearerToken.mk t).accepts got := by
    intro got
    rw [verdict, hs]
  refine ⟨?_, ?_, ?_, ?_⟩
  · intro token? sent got hsent harrive
    rw [hverdict]
    cases token? with
    | none =>
        obtain rfl := Except.ok.inj hsent
        have hnone := BearerToken.find?_of_arriveAs_nil harrive
        rw [BearerToken.accepts_iff, hnone]
        simp
    | some u => simpa using BearerToken.accepts_of_arriveAs hsent harrive
  · intro n target token? sent
    rw [Network.dial_eq_ok_iff]
    refine and_congr_right fun _ => and_congr_right fun hsent => ?_
    exact Network.all_text_iff_plain hsent
  · intro u hplain
    obtain ⟨sent, hsent⟩ := BearerToken.exists_header?_of_plain hplain
    exact ⟨[sent], by rw [BearerToken.headersOf, hsent]⟩
  · intro got
    rw [hverdict, BearerToken.accepts_iff]
    constructor
    · rintro ⟨h, pad, hfind, htext, htrim⟩
      have hpadded := Text.padded_trim pad
      rw [htrim] at hpadded
      exact ⟨hpadded.trim_eq_trim.symm.trans htrim, h, pad, hfind, htext, hpadded⟩
    · rintro ⟨htrimmed, h, pad, hfind, htext, hpadded⟩
      exact ⟨h, pad, hfind, htext, hpadded.trim_eq_trim.trans htrimmed⟩

/-- A server without methods that expects a token. -/
def expecting (token : String) : Server Unit where
  address := ⟨.v4 127 0 0 1, 8080⟩
  service := { table := ⟨[]⟩ }
  authenticator? := some (BearerToken.mk token).accepts

/-- A handshake in which a text is the value that counts. -/
def presenting (text : String) : Headers :=
  [⟨"authorization", Text.octets text.toList⟩, ⟨"host", Text.octets "localhost".toList⟩]

/-- A client that presents the expected token with blanks around it is known, also when
    the blank behind it is lost. -/
theorem padded_token_accepted :
    (expecting "s3cret").authenticator? = some (BearerToken.mk "s3cret").accepts
      ∧ (∃ sent, BearerToken.headersOf (some " s3cret\t") = .ok sent
        ∧ sent.ArriveAs (presenting "Bearer  s3cret"))
      ∧ (expecting "s3cret").verdict (presenting "Bearer  s3cret") = true := by
  have hsent : BearerToken.headersOf (some " s3cret\t")
      = .ok [⟨"authorization", Text.octets "Bearer  s3cret\t".toList⟩] := by decide +kernel
  have harrive : Headers.ArriveAs [⟨"authorization", Text.octets "Bearer  s3cret\t".toList⟩]
      (presenting "Bearer  s3cret") :=
    Headers.arriveAs_cons [] _
      ⟨rfl, [], [0x09], by simp [Header.BlankBytes], by simp [Header.BlankBytes],
        by decide +kernel⟩
  refine ⟨rfl, ⟨_, hsent, harrive⟩, ?_⟩
  obtain ⟨hverdict, -⟩ := (expecting "s3cret").authenticated_iff_token_presented "s3cret" rfl
  exact (hverdict _ _ _ hsent harrive).mpr
    ⟨_, rfl, by decide +kernel, by decide +kernel, Or.inl (by decide)⟩

/-- The network of a host on which one server listens. -/
def lone : Network := { taken := [⟨.v4 127 0 0 1, 8080⟩] }

/-- A token is not always accepted by the server that expects it, nor by that one alone.
    A token with a blank in front is sent and arrives as it is, but the server that expects
    it does not know the client, and the one that expects it without the blank does. And
    an empty token is not accepted if the blank in front of it is lost. -/
theorem blank_before_token_ignored :
    (∃ sent, lone.dial "ws://127.0.0.1:8080" (some " s") = .ok sent ∧ sent.ArriveAs sent
        ∧ (expecting " s").verdict sent = false ∧ (expecting "s").verdict sent = true)
      ∧ ∃ sent got, lone.dial "ws://127.0.0.1:8080" (some "") = .ok sent ∧ sent.ArriveAs got
        ∧ (expecting "").verdict got = false := by
  constructor
  · refine ⟨[⟨"authorization", Text.octets "Bearer  s".toList⟩], by decide +kernel, ?_,
      by decide +kernel, by decide +kernel⟩
    exact Headers.arriveAs_cons [] [] (Header.ArrivesAs.refl _)
  · refine ⟨[⟨"authorization", Text.octets "Bearer ".toList⟩],
      [⟨"authorization", Text.octets "Bearer".toList⟩], by decide +kernel, ?_, by decide +kernel⟩
    exact Headers.arriveAs_cons [] []
      ⟨rfl, [], [0x20], by simp [Header.BlankBytes], by simp [Header.BlankBytes],
        by decide +kernel⟩

end Server

end Switchboard
