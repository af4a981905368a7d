import Mathlib.Data.List.Forall2
import Switchboard.Proofs.Exchange

/-!
# The form of replies

Whatever a body holds and whatever happens to its envelopes, the answer is
one response, or an array of one response for each envelope of a batch. A
response carries a result or an error object and never both, echoes the id of
its envelope, and speaks the version that the envelope asks for.

The version and the id are recovered in different places: from a request that
was understood, from an envelope that was rejected at one of several points, or
not at all. `ofJson_echoes` reduces all of them to what the members of the
envelope say.
-/

namespace Switchboard

variable {σ : Type}

/-- The version that an envelope asks for. -/
def Json.dialect (v : Json) : Version := Version.ofMember (v.get? "jsonrpc")

/-- The id that the answer to an envelope has to carry: the one of the envelope
    if it names a method, and otherwise the null id. -/
def Json.echoedId (v : Json) : Json :=
  match v.get? "method" with
  | some (.str _) => (v.get? "id").getD .null
  | _ => .null

/-- A value is a response of a version that carries an id: an object with no members but those of a
    response and none of them twice, the tag of version 2.0 exactly in that version, exactly one of
    a result and an error, an error object for an error, and the id. -/
structure Json.IsResponse (v : Json) (version : Version) (id : Json) : Prop where
  members : ∃ members, v = .obj members ∧
    (members.map Prod.fst).Sublist ["jsonrpc", "result", "error", "id"]
  tag : v.get? "jsonrpc" = if version = .v2 then some (.str "2.0") else none
  outcome : (v.get? "result").isSome = !(v.get? "error").isSome
  error : ∀ e, v.get? "error" = some e → ∃ body : ErrorBody, e = body.toJson
  id : v.get? "id" = some id

/-- The response of an exchange as it is written. -/
def Exchange.response (x : Exchange σ) : Json := x.reply.response.toJson

/-- An exchange ends in a response to its envelope. -/
def Exchange.Answers (x : Exchange σ) : Prop :=
  x.response.IsResponse x.envelope.dialect x.envelope.echoedId

/-! ## Responses -/

/-- A success is a response with a result that carries its id. -/
theorem success_isResponse (version : Version) (result : Json) (id : Id) :
    (Response.success version result id).toJson.IsResponse version id.toJson := by
  cases version with
  | v1 =>
      show Json.IsResponse (.obj [("result", result), ("id", id.toJson)]) .v1 id.toJson
      refine ⟨⟨_, rfl, ?_⟩, rfl, rfl, nofun, rfl⟩
      show List.Sublist ["result", "id"] _
      decide
  | v2 =>
      show Json.IsResponse
        (.obj [("jsonrpc", .str "2.0"), ("result", result), ("id", id.toJson)]) .v2 id.toJson
      refine ⟨⟨_, rfl, ?_⟩, rfl, rfl, nofun, rfl⟩
      show List.Sublist ["jsonrpc", "result", "id"] _
      decide

/-- A failure is a response with an error object that carries its id. -/
theorem failure_isResponse (version : Version) (error : ErrorBody) (id : Id) :
    (Response.failure version error id).toJson.IsResponse version id.toJson := by
  have herror : ∀ e, some error.toJson = some e → ∃ body : ErrorBody, e = body.toJson :=
    fun e he => ⟨error, (Option.some.inj he).symm⟩
  cases version with
  | v1 =>
      show Json.IsResponse (.obj [("error", error.toJson), ("id", id.toJson)]) .v1 id.toJson
      refine ⟨⟨_, rfl, ?_⟩, rfl, rfl, herror, rfl⟩
      show List.Sublist ["error", "id"] _
      decide
  | v2 =>
      show Json.IsResponse
        (.obj [("jsonrpc", .str "2.0"), ("error", error.toJson), ("id", id.toJson)]) .v2 id.toJson
      refine ⟨⟨_, rfl, ?_⟩, rfl, rfl, herror, rfl⟩
      show List.Sublist ["jsonrpc", "error", "id"] _
      decide

/-! ## Ids and versions -/

/-- An id read from a member, or the null id, is written back as the member. -/
theorem toJson_getD_ofJson (id? : Option Json) :
    ((id?.map Id.ofJson).getD .null).toJson = id?.getD .null := by
  cases id? with
  | none => rfl
  | some v => exact Id.ofJson_toJson_of_ofJson v

/-- A request that names a method keeps its version and id, whether its
    parameters are accepted or not. -/
theorem ofParts_echoes (version : Version) (method : String) (params? : Option Json)
    (id? : Option Id) :
    match Call.ofParts version method params? id? with
    | .ok c => c.version = version ∧ c.responseId = id?.getD .null
    | .error r => r.version = version ∧ r.id = id?.getD .null := by
  unfold Call.ofParts
  cases Params.ofMember? params? with
  | none => exact ⟨rfl, rfl⟩
  | some params =>
      dsimp only
      by_cases h : (params.isNamed && !version.allowsNamed) = true
      · rw [if_pos h]
        exact ⟨rfl, rfl⟩
      · rw [if_neg h]
        exact ⟨rfl, rfl⟩

/-- Accepted or not, an envelope is answered with its own id and version. -/
theorem ofJson_echoes (v : Json) :
    match Call.ofJson v with
    | .ok c => c.version = v.dialect ∧ c.responseId.toJson = v.echoedId
    | .error r => r.version = v.dialect ∧ r.id.toJson = v.echoedId := by
  cases v with
  | obj members =>
      unfold Call.ofJson Json.dialect Json.echoedId Json.get?
      dsimp only
      -- only a text for a method gets as far as the parameters; all else has the null id
      match hm : members.lookup "method" with
      | none => exact ⟨rfl, rfl⟩
      | some (.str method) =>
          have h := ofParts_echoes (Version.ofMember (members.lookup "jsonrpc")) method
            (members.lookup "params") ((members.lookup "id").map Id.ofJson)
          dsimp only
          revert h
          cases Call.ofParts (Version.ofMember (members.lookup "jsonrpc")) method
            (members.lookup "params") ((members.lookup "id").map Id.ofJson) with
          | ok c =>
              rintro ⟨hversion, hid⟩
              exact ⟨hversion, by rw [hid, toJson_getD_ofJson]⟩
          | error r =>
              rintro ⟨hversion, hid⟩
              exact ⟨hversion, by rw [hid, toJson_getD_ofJson]⟩
      | some .null => exact ⟨rfl, rfl⟩
      | some (.bool b) => exact ⟨rfl, rfl⟩
      | some (.num n) => exact ⟨rfl, rfl⟩
      | some (.arr items) => exact ⟨rfl, rfl⟩
      | some (.obj inner) => exact ⟨rfl, rfl⟩
  | null => exact ⟨rfl, rfl⟩
  | bool b => exact ⟨rfl, rfl⟩
  | num n => exact ⟨rfl, rfl⟩
  | str t => exact ⟨rfl, rfl⟩
  | arr items => exact ⟨rfl, rfl⟩

namespace Service

variable (s : Service σ) (authenticated : Bool)

/-- Every exchange, whatever state it begins in, ends in a response to its
    envelope. -/
theorem exchange_answers (v : Json) (st : σ) : (s.exchange authenticated v st).Answers := by
  have hecho := ofJson_echoes v
  unfold Exchange.Answers Exchange.response
  cases hcall : Call.ofJson v with
  | ok c =>
      rw [hcall] at hecho
      obtain ⟨hversion, hid⟩ := hecho
      obtain ⟨r, st', called, -, hx⟩ := exchange_of_call s authenticated hcall st
      rw [hx, ← hversion, ← hid]
      cases r with
      | ok result => exact success_isResponse c.version result c.responseId
      | error f => exact failure_isResponse c.version (s.errorBody f) c.responseId
  | error r =>
      rw [hcall] at hecho
      obtain ⟨hversion, hid⟩ := hecho
      rw [exchange_of_rejection s authenticated hcall, ← hversion, ← hid]
      exact failure_isResponse r.version (s.errorBody r.fault) r.id

end Service

/-! ## Bodies -/

/-- The responses to a batch stand in an array, also a lone one. -/
theorem Replies.bodyOf_batch (rs : List Response) :
    bodyOf true rs = .arr (rs.map Response.toJson) := by
  match rs with
  | [] | [_] | _ :: _ :: _ => rfl

theorem Replies.toJson_batch (rs : List Reply) :
    (Replies.mk rs true).toJson = .arr (rs.map fun r => r.response.toJson) := by
  show bodyOf true (rs.map Reply.response) = _
  rw [bodyOf_batch, List.map_map]
  rfl

namespace Service

variable (s : Service σ) (authenticated : Bool)

theorem answerText_value (body : ByteArray) (st : σ) :
    (s.answerText body authenticated).value st
      = ((s.answer body authenticated).value st).toJson.render := rfl

/-- The exchanges of a batch answer its envelopes, each its own. -/
theorem exchanges_answer (items : List Json) (st : σ) :
    List.Forall₂ (fun item response => response.IsResponse item.dialect item.echoedId) items
      ((s.exchanges authenticated items st).map Exchange.response) := by
  induction items generalizing st with
  | nil => exact List.Forall₂.nil
  | cons v rest ih =>
      exact List.Forall₂.cons (exchange_answers s authenticated v st)
        (ih (s.exchange authenticated v st).after)

/-- What a body is answered with: one response, or for a batch an array of those of its
    exchanges. -/
theorem answer_toJson (body : ByteArray) (st : σ) :
    ((s.answer body authenticated).value st).toJson = match Json.ofBytes? body with
      | none => (Response.failure .v1 (s.errorBody Undecodable.notJson.fault) .null).toJson
      | some (.arr []) =>
        (Response.failure .v2 (s.errorBody Undecodable.emptyBatch.fault) .null).toJson
      | some (.arr items) => .arr ((s.exchanges authenticated items st).map Exchange.response)
      | some item => (s.exchange authenticated item st).response := by
  cases hbody : Json.ofBytes? body with
  | none =>
      rw [answer_of_undecodable s authenticated (Body.decode_of_none hbody)]
      rfl
  | some v =>
      have hdecode := Body.decode_of_some hbody
      match v with
      | .arr [] =>
          rw [answer_of_undecodable s authenticated hdecode]
          rfl
      | .arr (item :: items) =>
          rw [answer_of_batch s authenticated hdecode, Replies.toJson_batch, List.map_map]
          rfl
      | .null | .bool _ | .num _ | .str _ | .obj _ =>
          rw [answer_of_single s authenticated hdecode]
          rfl

/-- Every body is answered with the text of one response, or of an array with one
    response for each envelope if it is a batch. The response to an envelope
    carries the id of an envelope that names a method and speaks its version; a
    body of which nothing can be made is answered in version 1.0 if it is no JSON
    text and in version 2.0 if it is an empty batch. -/
theorem answerText_one_response_each (body : ByteArray) (st : σ) :
    ∃ answer : Json, (s.answerText body authenticated).value st = answer.render ∧
      match Json.ofBytes? body with
      | none => answer.IsResponse .v1 .null
      | some (.arr []) => answer.IsResponse .v2 .null
      | some (.arr items) => ∃ responses, answer = .arr responses ∧
          responses = (s.exchanges authenticated items st).map Exchange.response ∧
          List.Forall₂ (fun item response => response.IsResponse item.dialect item.echoedId)
            items responses
      | some item => answer.IsResponse item.dialect item.echoedId := by
  refine ⟨_, answerText_value s authenticated body st, ?_⟩
  rw [answer_toJson]
  match Json.ofBytes? body with
  | none => exact failure_isResponse .v1 _ .null
  | some (.arr []) => exact failure_isResponse .v2 _ .null
  | some (.arr (item :: items)) =>
      exact ⟨_, rfl, rfl, exchanges_answer s authenticated (item :: items) st⟩
  | some .null | some (.bool _) | some (.num _) | some (.str _) | some (.obj _) =>
      exact exchange_answers s authenticated _ st

end Service

end Switchboard
