import Switchboard.Proofs.Reading
import Switchboard.Proofs.Transparency

/-!
# Answers that can be read

The text of an answer is made for a reader, who knows nothing of the value that
it was written from. What the reader finds are the same responses with their
members in order (`Json.ShowsResponse`): of the version that the envelope asks
for, with its id, and with exactly one of a result and an error object.

An id is echoed from an envelope that was itself read from a text, so it comes
back as it is; results come from handlers, which end with values as programs
have them; error objects are the service's own. So every answer is legible, as
long as its values are nested no deeper than a reader goes
(`Service.answerText_read_back`).
-/

namespace Switchboard

variable {σ : Type}

/-- What a reader finds in a response of a version that carries an id: an object with no members
    but those of a response, the tag of the version, exactly one of a result and an error, an
    error object for an error, and the id. -/
structure Json.ShowsResponse (v : Json) (version : Version) (id : Json) : Prop where
  members : ∃ members : Members, v = .obj members ∧ members.Sorted
    ∧ members.map Prod.fst ⊆ ["error", "id", "jsonrpc", "result"]
  tag : v.get? "jsonrpc" = if version = .v2 then some (.str "2.0") else none
  outcome : (v.get? "result").isSome = !(v.get? "error").isSome
  error : ∀ e, v.get? "error" = some e → ∃ body : ErrorBody, body.Valid ∧ e = .obj body.inOrder
  id : v.get? "id" = some id

/-- A response that can be written, and that a reader finds to be one. -/
structure Json.Legible (v : Json) (version : Version) (id : Json) : Prop where
  sound : v.Sound
  reads : v.sorted.ShowsResponse version id

/-! ## Responses -/

/-- A response with a result is legible. -/
theorem success_legible (version : Version) {result : Json} {id : Id} (hid : id.toJson.Valid)
    (hresult : result.Valid) :
    (Response.success version result id).toJson.Legible version id.toJson := by
  obtain ⟨hsound, hsorted⟩ := Response.success_reads version hid hresult
  refine ⟨hsound, ?_⟩
  rw [hsorted]
  cases version with
  | v1 =>
      refine ⟨⟨_, rfl, Members.sorted_of_keys ?_, ?_⟩, rfl, rfl, nofun, rfl⟩
      · show List.Pairwise _ ["id", "result"]
        decide
      · show ["id", "result"] ⊆ _
        decide
  | v2 =>
      refine ⟨⟨_, rfl, Members.sorted_of_keys ?_, ?_⟩, rfl, rfl, nofun, rfl⟩
      · show List.Pairwise _ ["id", "jsonrpc", "result"]
        decide
      · show ["id", "jsonrpc", "result"] ⊆ _
        decide

/-- A response with an error object is legible. -/
theorem failure_legible (version : Version) {e : ErrorBody} {id : Id} (hid : id.toJson.Valid)
    (he : e.Valid) : (Response.failure version e id).toJson.Legible version id.toJson := by
  obtain ⟨hsound, hsorted⟩ := Response.failure_reads version hid he
  refine ⟨hsound, ?_⟩
  rw [hsorted]
  have herror : ∀ v, some (Json.obj e.inOrder) = some v →
      ∃ body : ErrorBody, body.Valid ∧ v = .obj body.inOrder := by
    rintro v ⟨⟩
    exact ⟨e, he, rfl⟩
  cases version with
  | v1 =>
      refine ⟨⟨_, rfl, Members.sorted_of_keys ?_, ?_⟩, rfl, rfl, herror, rfl⟩
      · show List.Pairwise _ ["error", "id"]
        decide
      · show ["error", "id"] ⊆ _
        decide
  | v2 =>
      refine ⟨⟨_, rfl, Members.sorted_of_keys ?_, ?_⟩, rfl, rfl, herror, rfl⟩
      · show List.Pairwise _ ["error", "id", "jsonrpc"]
        decide
      · show ["error", "id", "jsonrpc"] ⊆ _
        decide

/-! ## Envelopes -/

/-- The member of a value that is in order is in order. -/
theorem Json.Valid.of_get? {v w : Json} (hv : v.Valid) {key : String} (h : v.get? key = some w) :
    w.Valid := by
  cases v with
  | obj members => exact hv.members.of_lookup h
  | null | bool _ | num _ | str _ | arr _ => exact nomatch h

/-- The id that an envelope is answered with is in order if the envelope is. -/
theorem Json.Valid.echoedId {v : Json} (hv : v.Valid) : v.echoedId.Valid := by
  unfold Json.echoedId
  split
  · cases hid : v.get? "id" with
    | none => exact .null
    | some id => exact hv.of_get? hid
  · exact .null

namespace Service

variable {s : Service σ} (hs : s.HandlersValid) (authenticated : Bool)

include hs

/-- Whatever an envelope is answered with is legible. -/
theorem exchange_legible {v : Json} (hv : v.Valid) (st : σ) :
    (s.exchange authenticated v st).response.Legible v.dialect v.echoedId := by
  have hecho := ofJson_echoes v
  have hid := hv.echoedId
  unfold Exchange.response
  cases hcall : Call.ofJson v with
  | ok c =>
      rw [hcall] at hecho
      obtain ⟨hversion, hsame⟩ := hecho
      -- whatever the call ends in can be sent, and carries what the envelope asks for
      obtain ⟨r, st', called, hcarried, hx⟩ := exchange_of_call s authenticated hcall st
      rw [← hsame] at hid
      rw [hx, ← hversion, ← hsame]
      have hr : ResultValid r := hcarried.valid s authenticated hs
      cases r with
      | ok result => exact success_legible c.version hid hr
      | error f => exact failure_legible c.version hid (s.errorBody_valid hr)
  | error r =>
      rw [hcall] at hecho
      obtain ⟨hversion, hsame⟩ := hecho
      rw [← hsame] at hid
      rw [exchange_of_rejection s authenticated hcall, ← hversion, ← hsame]
      exact failure_legible r.version hid (s.errorBody_valid trivial)

/-- The envelopes of a batch are answered with legible responses, each with its own. -/
theorem exchanges_legible {items : List Json} (hitems : ∀ v ∈ items, v.Valid) (st : σ) :
    List.Forall₂ (fun item response => response.Legible item.dialect item.echoedId) items
      ((s.exchanges authenticated items st).map Exchange.response) := by
  induction items generalizing st with
  | nil => exact List.Forall₂.nil
  | cons v rest ih =>
      obtain ⟨hv, hrest⟩ := List.forall_mem_cons.mp hitems
      exact List.Forall₂.cons (exchange_legible hs authenticated hv st)
        (ih hrest (s.exchange authenticated v st).after)

/-! ## Bodies -/

/-- Whoever reads the text of an answer that is nested no deeper than readers go finds one
    response, or for a batch an array with one response for each envelope, each with the id and in
    the version that its envelope asks for. -/
theorem answerText_read_back (body : ByteArray) (st : σ)
    (hdepth : ((s.answer body authenticated).value st).toJson.depth ≤ Reader.maxDepth) :
    ∃ read, Json.ofBytes? ((s.answerText body authenticated).value st).toUTF8 = some read ∧
      match Json.ofBytes? body with
      | none => read.ShowsResponse .v1 .null
      | some (.arr []) => read.ShowsResponse .v2 .null
      | some (.arr items) => ∃ responses, read = .arr responses ∧
          List.Forall₂ (fun item response => response.ShowsResponse item.dialect item.echoedId)
            items responses
      | some item => read.ShowsResponse item.dialect item.echoedId := by
  -- the text of a sound value reads back as the value in order, so that one has to be shown
  suffices hlegible : ((s.answer body authenticated).value st).toJson.Sound ∧ _ from
    ⟨_, hlegible.1.ofBytes?_toUTF8 hdepth, hlegible.2⟩
  rw [answer_toJson]
  have hundecodable (version : Version) (u : Undecodable) :
      (Response.failure version (s.errorBody u.fault) .null).toJson.Legible version .null := by
    refine failure_legible version .null (s.errorBody_valid ?_)
    cases u <;> trivial
  cases hbody : Json.ofBytes? body with
  | none => exact ⟨(hundecodable _ _).sound, (hundecodable .v1 .notJson).reads⟩
  | some v =>
      have hv := Json.valid_of_ofBytes? hbody
      match v with
      | .arr [] => exact ⟨(hundecodable _ _).sound, (hundecodable .v2 .emptyBatch).reads⟩
      | .arr (item :: items) =>
          have hitems : ∀ v ∈ item :: items, v.Valid := by
            cases hv with
            | arr h => exact h
          have heach := exchanges_legible hs authenticated hitems st
          obtain ⟨hsound, -⟩ := (List.forall₂_and_left _ _).mp
            (heach.flip.imp fun _ _ h => ⟨h.sound, h⟩)
          exact ⟨.arr hsound, _, congrArg Json.arr (Json.sortedItems_eq_map _),
            List.forall₂_map_right_iff.mpr (heach.imp fun _ _ h => h.reads)⟩
      | .null | .bool _ | .num _ | .str _ | .obj _ =>
          have hlegible := exchange_legible hs authenticated hv st
          exact ⟨hlegible.sound, hlegible.reads⟩

end Service

end Switchboard
