import Switchboard.Proofs.Reply

/-!
# What a request says

Everything that a service knows about a call is read off the members of its
envelope. An envelope is accepted as a call exactly if it names a method, its
parameters are parameters, and they go by name only where its version lets
them; the call then has the method, the parameters, the version and the id of
the envelope, and nothing else (`Call.ofJson_eq_ok_iff`).
-/

namespace Switchboard

namespace Call

/-- The parts of an envelope that names a method make a call exactly if its parameters are
    parameters of its version. -/
theorem ofParts_eq_ok_iff {version : Version} {method : String} {params? : Option Json}
    {id? : Option Id} {c : Call} :
    ofParts version method params? id? = .ok c ↔
      ∃ params, Params.ofMember? params? = some params
        ∧ (params.isNamed = true → version.allowsNamed = true)
        ∧ c = ⟨version, method, params, id?⟩ := by
  unfold ofParts
  cases Params.ofMember? params? with
  | none =>
      constructor
      · intro h
        exact nomatch h
      · rintro ⟨params, hnone, -⟩
        exact nomatch hnone
  | some params =>
      have hallowed : ¬(params.isNamed && !version.allowsNamed) = true
          ↔ (params.isNamed = true → version.allowsNamed = true) := by
        simp
      constructor
      · intro h
        by_cases hnamed : (params.isNamed && !version.allowsNamed) = true
        · exact nomatch (if_pos hnamed).symm.trans h
        · exact ⟨params, rfl, hallowed.mp hnamed,
            (Except.ok.inj ((if_neg hnamed).symm.trans h)).symm⟩
      · rintro ⟨params', hsame, hnamed, rfl⟩
        obtain rfl : params = params' := Option.some.inj hsame
        exact if_neg (hallowed.mpr hnamed)

/-- An envelope is accepted as a call exactly if its members say so. -/
theorem ofJson_eq_ok_iff {v : Json} {c : Call} :
    ofJson v = .ok c ↔
      v.get? "method" = some (.str c.method)
        ∧ Params.ofMember? (v.get? "params") = some c.params
        ∧ (c.params.isNamed = true → c.version.allowsNamed = true)
        ∧ c.version = v.dialect
        ∧ c.id? = (v.get? "id").map Id.ofJson := by
  obtain ⟨version, method, params, id?⟩ := c
  have hnone : v.get? "method" = none → ¬ v.get? "method" = some (.str method) := by
    intro h
    rw [h]
    exact nofun
  cases v with
  | obj members =>
      show ofJson (.obj members) = _ ↔ members.lookup "method" = _
        ∧ Params.ofMember? (members.lookup "params") = _ ∧ _
        ∧ version = Version.ofMember (members.lookup "jsonrpc")
        ∧ id? = (members.lookup "id").map Id.ofJson
      unfold ofJson
      dsimp only
      -- only a name that is a text lets the other members count
      match members.lookup "method" with
      | some (.str name) =>
          dsimp only
          rw [ofParts_eq_ok_iff]
          constructor
          · rintro ⟨params, hparams, hnamed, ⟨⟩⟩
            exact ⟨rfl, hparams, hnamed, rfl, rfl⟩
          · rintro ⟨⟨⟩, hparams, hnamed, rfl, rfl⟩
            exact ⟨params, hparams, hnamed, rfl⟩
      | none | some .null | some (.bool _) | some (.num _) | some (.arr _) | some (.obj _) =>
          exact ⟨nofun, fun h => nomatch h.1⟩
  | null | bool _ | num _ | str _ | arr _ =>
      exact ⟨nofun, fun h => absurd h.1 (hnone rfl)⟩

end Call

end Switchboard
