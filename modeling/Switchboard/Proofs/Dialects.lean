import Switchboard.Proofs.Envelopes
import Switchboard.Proofs.Rounding

/-!
# Envelopes and the letter of the protocol

By its letter the protocol knows one way to ask for version 2.0, the text `2.0`
for `jsonrpc`, and it wants the parameters in an array or an object unless they
are left out. Two things are taken beyond that: the number two for the text, and
`null` for parameters that are left out.

`Call.Matches` is what it is for a call to match an envelope, for any choice of
the members that stand for version 2.0 and for parameters. Envelopes are
accepted as the calls that match them under the generous choice
(`Call.ofJson_exact`), and that is another reading than the one by the letter
only for envelopes with a number two or a `null` in these two places
(`Call.ofJson_by_the_letter_iff`).
-/

namespace Switchboard

/-! ## The number two -/

/-- The number two, as an integer or with a fraction that is zero. -/
def Number.IsTwo (n : Number) : Prop := n = .int 2 ∨ n = .float Binary64.two

theorem roundHalfEven_one (n : ℕ) : roundHalfEven n 1 = n := by
  unfold roundHalfEven
  rw [Nat.mod_one, Nat.div_one]
  rfl

/-- A positive integer whose rounded value has the fields of the number two is two. The fields give
    away the power of two below the integer, and of integers this small nothing is rounded off. -/
theorem eq_two_of_fields {k : ℕ} (hk : 0 < k)
    (hfields : (Binary64.fittingExponent k 1 + 1074).toNat * 0x10000000000000
      + roundHalfEven (k * Nat.pow 2 (-Binary64.fittingExponent k 1).toNat)
          (1 * Nat.pow 2 (Binary64.fittingExponent k 1).toNat)
      = 0x4000000000000000) : k = 2 := by
  obtain ⟨-, hhigh, -⟩ := Binary64.fittingExponent_spec hk Nat.one_pos
  generalize Binary64.fittingExponent k 1 = q at *
  rw [Nat.cast_one, div_one] at hhigh
  have hlower : -52 ≤ q := by
    by_contra hless
    have hone : (2 : ℚ) ^ (q + 53) ≤ 2 ^ (0 : ℤ) := zpow_le_zpow_right₀ one_le_two (by omega)
    have hpos : (1 : ℚ) ≤ k := by exact_mod_cast hk
    rw [zpow_zero] at hone
    linarith
  obtain ⟨e, rfl⟩ : ∃ e : ℕ, q = -(e : ℤ) := ⟨(-q).toNat, by omega⟩
  rw [neg_neg, Int.toNat_natCast, show (-(e : ℤ)).toNat = 0 by omega] at hfields
  change (-(e : ℤ) + 1074).toNat * 0x10000000000000 + roundHalfEven (k * 2 ^ e) 1 = _ at hfields
  rw [roundHalfEven_one] at hfields
  -- the fields leave room for three exponents, and one integer fits only the middle one
  obtain rfl | rfl | rfl : e = 52 ∨ e = 51 ∨ e = 50 := by omega
  · have hsmall : (k : ℚ) < (2 : ℕ) := hhigh.trans_eq (by norm_num)
    have := Nat.cast_lt.mp hsmall
    omega
  · omega
  · omega

/-- No integer but two is rounded to two. -/
theorem Binary64.ofInt?_eq_two_iff {n : ℤ} : ofInt? n = some two ↔ n = 2 := by
  constructor
  · intro h
    unfold ofInt? ofRatio? at h
    by_cases hzero : n.natAbs = 0
    · rw [if_pos hzero] at h
      exact nomatch congrArg Binary64.magnitude (Option.some.inj h)
    · rw [if_neg hzero] at h
      dsimp only at h
      split at h
      · obtain ⟨hsign, hfields⟩ := Binary64.mk.inj (Option.some.inj h)
        have hpos : ¬ n < 0 := of_decide_eq_false hsign
        have htwo := eq_two_of_fields (Nat.pos_of_ne_zero hzero) hfields
        omega
      · exact nomatch h
  · rintro rfl
    decide +kernel

/-- A number is two exactly if two is what a float makes of it. -/
theorem Number.isTwo_iff {n : Number} : n.IsTwo ↔ n.toBinary64? = some Binary64.two := by
  cases n with
  | int k => simp [Number.IsTwo, Number.toBinary64?, Binary64.ofInt?_eq_two_iff]
  | float x => simp [Number.IsTwo, Number.toBinary64?]

/-! ## What an envelope means -/

/-- The `jsonrpc` members that stand for version 2.0 by the letter. -/
def Version.LetterTag (member? : Option Json) : Prop := member? = some (.str "2.0")

/-- The `jsonrpc` members that stand for version 2.0. -/
def Version.Tag (member? : Option Json) : Prop :=
  LetterTag member? ∨ ∃ n : Number, n.IsTwo ∧ member? = some (.num n)

/-- The parameters that a `params` member stands for by the letter: none if it is left out, those
    in an array in order, and those in an object under their names. -/
inductive Params.Letter : Option Json → Params → Prop where
  | absent : Letter none (.positional [])
  | array (items : List Json) : Letter (some (.arr items)) (.positional items)
  | object (members : Members) : Letter (some (.obj members)) (.named members)

/-- The parameters that a `params` member stands for. -/
def Params.Given (member? : Option Json) (params : Params) : Prop :=
  Letter member? params ∨ member? = some .null ∧ params = .positional []

/-- A call matches an envelope, when it is settled which `jsonrpc` members stand for version 2.0
    and which parameters a `params` member stands for. The envelope is an object that names the
    method and gives the parameters, only version 2.0 gives them by name, the call is of that
    version exactly if the envelope says so, and the id is there if the envelope has one and is the
    same value. -/
structure Call.Matches (isTag : Option Json → Prop) (gives : Option Json → Params → Prop) (c : Call)
    (v : Json) : Prop where
  object : ∃ members, v = .obj members
  method : v.get? "method" = some (.str c.method)
  params : gives (v.get? "params") c.params
  named : c.params.isNamed = true → c.version = .v2
  version : c.version = .v2 ↔ isTag (v.get? "jsonrpc")
  id : c.id? = (v.get? "id").map Id.ofJson

/-- A call matches an envelope by the letter of the protocol. -/
def Call.MatchesLetter (c : Call) (v : Json) : Prop := c.Matches Version.LetterTag Params.Letter v

/-- The version is 2.0 exactly under one of its tags. -/
theorem Version.ofMember_eq_v2_iff {member? : Option Json} :
    ofMember member? = .v2 ↔ Tag member? := by
  unfold Tag LetterTag
  match member? with
  | some (.str s) =>
      show (if s = "2.0" then Version.v2 else .v1) = .v2 ↔ _
      by_cases h : s = "2.0" <;> simp [h]
  | some (.num n) =>
      show (if n.toBinary64? = some Binary64.two then Version.v2 else .v1) = .v2 ↔ _
      by_cases h : n.toBinary64? = some Binary64.two <;> simp [h, Number.isTwo_iff]
  | none | some .null | some (.bool _) | some (.arr _) | some (.obj _) => simp [ofMember]

/-- Parameters are taken from a member exactly if it stands for some. -/
theorem Params.ofMember?_eq_some_iff {member? : Option Json} {params : Params} :
    ofMember? member? = some params ↔ Given member? params := by
  constructor
  · intro h
    match member? with
    | none =>
        obtain rfl := Option.some.inj h
        exact Or.inl .absent
    | some .null => exact Or.inr ⟨rfl, (Option.some.inj h).symm⟩
    | some (.arr items) =>
        obtain rfl := Option.some.inj h
        exact Or.inl (.array items)
    | some (.obj members) =>
        obtain rfl := Option.some.inj h
        exact Or.inl (.object members)
    | some (.bool _) | some (.num _) | some (.str _) => exact nomatch h
  · rintro ((_ | items | members) | ⟨rfl, rfl⟩) <;> rfl

namespace Call

/-- A call is what an envelope is accepted as exactly if it matches the envelope. -/
theorem ofJson_eq_ok_iff_matches {v : Json} {c : Call} :
    ofJson v = .ok c ↔ c.Matches Version.Tag Params.Given v := by
  have hallowed : ∀ version : Version, version.allowsNamed = true ↔ version = .v2 := by
    intro version
    cases version <;> decide
  rw [ofJson_eq_ok_iff, hallowed, Params.ofMember?_eq_some_iff]
  constructor
  · rintro ⟨hmethod, hparams, hnamed, hversion, hid⟩
    refine ⟨?_, hmethod, hparams, hnamed, ?_, hid⟩
    · cases v with
      | obj members => exact ⟨members, rfl⟩
      | null | bool _ | num _ | str _ | arr _ => exact nomatch hmethod
    · rw [hversion]
      exact Version.ofMember_eq_v2_iff
  · intro h
    refine ⟨h.method, h.params, h.named, ?_, h.id⟩
    -- there are two versions, so the one that is not 2.0 on either side is 1.0
    have hdialect : v.dialect = .v2 ↔ c.version = .v2 :=
      Version.ofMember_eq_v2_iff.trans h.version.symm
    revert hdialect
    cases c.version <;> cases v.dialect <;> decide

/-- The id of a call that matches an envelope is the `id` member of the envelope. -/
theorem Matches.id_as_sent {isTag : Option Json → Prop} {gives : Option Json → Params → Prop}
    {c : Call} {v : Json} (h : c.Matches isTag gives v) : c.id?.map Id.toJson = v.get? "id" := by
  rw [h.id, Option.map_map]
  cases v.get? "id" with
  | none => rfl
  | some w => exact congrArg some (Id.ofJson_toJson_of_ofJson w)

/-- Some call matches an envelope exactly if the envelope is an object that names a method
    and gives parameters, by name only in version 2.0. -/
theorem exists_matches_iff {isTag : Option Json → Prop} {gives : Option Json → Params → Prop}
    {v : Json} :
    (∃ c : Call, c.Matches isTag gives v)
      ↔ (∃ members, v = .obj members) ∧ (∃ name, v.get? "method" = some (.str name))
        ∧ ∃ params, gives (v.get? "params") params
          ∧ (params.isNamed = true → isTag (v.get? "jsonrpc")) := by
  classical
  constructor
  · rintro ⟨c, h⟩
    exact ⟨h.object, ⟨c.method, h.method⟩, c.params, h.params,
      fun hnamed => h.version.mp (h.named hnamed)⟩
  · rintro ⟨hobject, ⟨name, hmethod⟩, params, hparams, hnamed⟩
    by_cases htag : isTag (v.get? "jsonrpc")
    · exact ⟨⟨.v2, name, params, _⟩, hobject, hmethod, hparams, fun _ => rfl,
        iff_of_true rfl htag, rfl⟩
    · exact ⟨⟨.v1, name, params, _⟩, hobject, hmethod, hparams,
        fun h => absurd (hnamed h) htag, iff_of_false nofun htag, rfl⟩

/-- Envelopes are accepted exactly as they are meant. An envelope is accepted as a call exactly if
    the call matches it, and then the id of the call is the `id` member as it was sent. So it is
    accepted exactly if it is an object that names a method and gives parameters, by name only in
    version 2.0, and everything else is refused as an invalid request. -/
theorem ofJson_exact (v : Json) :
    (∀ c, ofJson v = .ok c ↔ c.Matches Version.Tag Params.Given v)
      ∧ (∀ c, ofJson v = .ok c → c.id?.map Id.toJson = v.get? "id")
      ∧ ((∃ c, ofJson v = .ok c)
        ↔ (∃ members, v = .obj members) ∧ (∃ name, v.get? "method" = some (.str name))
          ∧ ∃ params, Params.Given (v.get? "params") params
            ∧ (params.isNamed = true → Version.Tag (v.get? "jsonrpc")))
      ∧ ((¬ ∃ c, ofJson v = .ok c) →
        ∃ r, ofJson v = .error r ∧ ∃ reason, r.fault = .invalidRequest reason) := by
  refine ⟨fun c => ofJson_eq_ok_iff_matches, ?_, ?_, ?_⟩
  · intro c hc
    exact (ofJson_eq_ok_iff_matches.mp hc).id_as_sent
  · simp only [ofJson_eq_ok_iff_matches]
    exact exists_matches_iff
  · intro hnone
    cases hv : ofJson v with
    | ok c => exact absurd ⟨c, hv⟩ hnone
    | error r => exact ⟨r, rfl, _, rfl⟩

/-- An envelope that names the version by the number two, and its parameters with it. -/
def decimalEnvelope : Json :=
  .obj [("id", .num (.int 1)), ("jsonrpc", .num (.float Binary64.two)), ("method", .str "m"),
    ("params", .obj [("a", .num (.int 1))])]

/-- An envelope with `null` for parameters. -/
def blankEnvelope : Json :=
  .obj [("id", .num (.int 1)), ("jsonrpc", .str "2.0"), ("method", .str "m"), ("params", .null)]

/-- Two envelopes that are accepted although no call matches them by the letter. -/
theorem accepted_beyond_letter :
    (∃ c, ofJson decimalEnvelope = .ok c ∧ c.version = .v2 ∧ c.params.isNamed = true)
      ∧ (¬ ∃ c : Call, c.MatchesLetter decimalEnvelope)
      ∧ (∃ c, ofJson blankEnvelope = .ok c ∧ c.params = .positional [])
      ∧ (¬ ∃ c : Call, c.MatchesLetter blankEnvelope)
      ∧ ¬ ∀ (v : Json) (c : Call), ofJson v = .ok c ↔ c.MatchesLetter v := by
  have hdecimal : ofJson decimalEnvelope
      = .ok ⟨.v2, "m", .named [("a", .num (.int 1))], some (.number (.int 1))⟩ := by decide +kernel
  have hblank : ofJson blankEnvelope
      = .ok ⟨.v2, "m", .positional [], some (.number (.int 1))⟩ := by decide +kernel
  have hdecimal' : ¬ ∃ c : Call, c.MatchesLetter decimalEnvelope := by
    rintro ⟨c, hc⟩
    obtain ⟨-, -, params, hparams, hnamed⟩ := exists_matches_iff.mp ⟨c, hc⟩
    cases hparams with
    | object members => exact nomatch hnamed rfl
  have hblank' : ¬ ∃ c : Call, c.MatchesLetter blankEnvelope := by
    rintro ⟨c, hc⟩
    exact nomatch hc.params
  exact ⟨⟨_, hdecimal, rfl, rfl⟩, hdecimal', ⟨_, hblank, rfl⟩, hblank',
    fun h => hblank' ⟨_, (h _ _).mp hblank⟩⟩

/-- Under choices that agree on its members the same calls match an envelope. -/
theorem Matches.congr {isTag isTag' : Option Json → Prop}
    {gives gives' : Option Json → Params → Prop} {c : Call} {v : Json}
    (htag : isTag (v.get? "jsonrpc") ↔ isTag' (v.get? "jsonrpc"))
    (hgives : ∀ params, gives (v.get? "params") params ↔ gives' (v.get? "params") params) :
    c.Matches isTag gives v ↔ c.Matches isTag' gives' v := by
  constructor
  · intro h
    exact ⟨h.object, h.method, (hgives _).mp h.params, h.named, h.version.trans htag, h.id⟩
  · intro h
    exact ⟨h.object, h.method, (hgives _).mpr h.params, h.named, h.version.trans htag.symm, h.id⟩

/-- Envelopes are read by the letter unless they name a method and have `null` for parameters, or
    the number two for a version beside parameters that are given by the letter. -/
theorem ofJson_by_the_letter_iff (v : Json) :
    (∀ c, ofJson v = .ok c ↔ c.MatchesLetter v)
      ↔ ¬ ((∃ name, v.get? "method" = some (.str name))
          ∧ (v.get? "params" = some .null
            ∨ (∃ n : Number, n.IsTwo ∧ v.get? "jsonrpc" = some (.num n))
              ∧ ∃ params, Params.Letter (v.get? "params") params)) := by
  simp only [ofJson_eq_ok_iff_matches]
  constructor
  · rintro hsame ⟨⟨name, hmethod⟩, hbeyond⟩
    have hobject : ∃ members, v = .obj members := by
      cases v with
      | obj members => exact ⟨members, rfl⟩
      | null | bool _ | num _ | str _ | arr _ => exact nomatch hmethod
    -- either way the service takes for a request what the letter does not allow
    rcases hbeyond with hnull | ⟨⟨n, htwo, hnumber⟩, params, hparams⟩
    · have haccepted : ∃ c : Call, c.Matches Version.Tag Params.Given v :=
        exists_matches_iff.mpr
          ⟨hobject, ⟨name, hmethod⟩, .positional [], Or.inr ⟨hnull, rfl⟩, nofun⟩
      obtain ⟨c, hc⟩ := haccepted
      have hletter := ((hsame c).mp hc).params
      rw [hnull] at hletter
      exact nomatch hletter
    · have htag : Version.Tag (v.get? "jsonrpc") := Or.inr ⟨n, htwo, hnumber⟩
      have haccepted : ∃ c : Call, c.Matches Version.Tag Params.Given v :=
        exists_matches_iff.mpr ⟨hobject, ⟨name, hmethod⟩, params, Or.inl hparams, fun _ => htag⟩
      obtain ⟨c, hc⟩ := haccepted
      have hletter : v.get? "jsonrpc" = some (.str "2.0") :=
        ((hsame c).mp hc).version.mp (hc.version.mpr htag)
      exact nomatch hnumber.symm.trans hletter
  · intro hnot c
    by_cases hmethod : ∃ name, v.get? "method" = some (.str name)
    · have hnull : v.get? "params" ≠ some .null := fun h => hnot ⟨hmethod, Or.inl h⟩
      have hgives : ∀ params, Params.Given (v.get? "params") params
          ↔ Params.Letter (v.get? "params") params :=
        fun params => or_iff_left fun h => hnull h.1
      by_cases hparams : ∃ params, Params.Letter (v.get? "params") params
      · have hnumber : ¬ ∃ n : Number, n.IsTwo ∧ v.get? "jsonrpc" = some (.num n) :=
          fun h => hnot ⟨hmethod, Or.inr ⟨h, hparams⟩⟩
        exact Matches.congr (or_iff_left hnumber) hgives
      · exact ⟨fun h => absurd ⟨_, (hgives _).mp h.params⟩ hparams,
          fun h => absurd ⟨_, h.params⟩ hparams⟩
    · exact ⟨fun h => absurd ⟨_, h.method⟩ hmethod, fun h => absurd ⟨_, h.method⟩ hmethod⟩

end Call

end Switchboard
