import Switchboard.Proofs.Reply
import Switchboard.Proofs.Responses

/-!
# Calls as if there were no wire

A client that is led straight to a service gets what the service's own
pipeline ends in: the result, or the error object that the fault is answered
with. Nothing is lost or added on the way, neither by writing and reading the
request nor by writing and reading the response.

This needs nothing from the handlers but that the values they end with are
values as programs have them (`Service.HandlersValid`), which is what makes
everything the service puts into a response come back.
-/

namespace Switchboard

variable {σ : Type}

/-! ## What a service puts into responses -/

/-- A fault whose error object, if it has one of its own, is one as programs have them. -/
def Fault.Valid : Fault → Prop
  | .remote e => e.Valid
  | _ => True

/-- An end of a handler with values as programs have them. -/
def Outcome.Valid : Outcome → Prop
  | .value v => v.Valid
  | .fault f => f.Valid
  | .panic _ => True

/-- A result or a fault with values as programs have them. -/
def ResultValid : Except Fault Json → Prop
  | .ok v => v.Valid
  | .error f => f.Valid

/-- The handlers of a service end with values as programs have them, whatever they are given. -/
def Service.HandlersValid (s : Service σ) : Prop :=
  ∀ m ∈ s.table.methods, ∀ ctx params st, (m.handler ctx params st).1.Valid

/-- Every entry of a listing is valid JSON. -/
theorem Method.describe_valid (m : Method σ) : m.describe.Valid := by
  have hparameter (p : Parameter) : p.toJson.Valid := by
    refine Json.object_valid ?_
    simpa using ⟨Json.Valid.str p.name, Json.Valid.str p.kind.name⟩
  have hparameters : (Json.ofOption
      (m.signature.parameters?.map fun ps => .arr (ps.map Parameter.toJson))).Valid := by
    cases m.signature.parameters? with
    | none => exact .null
    | some ps =>
        refine .arr ?_
        intro v hv
        obtain ⟨p, -, rfl⟩ := List.mem_map.mp hv
        exact hparameter p
  refine Json.object_valid ?_
  simpa using ⟨Json.Valid.str m.name, Json.Valid.str m.signature.render, hparameters,
    Json.Valid.str m.signature.returns.name, Json.Valid.bool m.authenticated,
    Json.Valid.bool m.safe, Json.Valid.bool m.validate⟩

theorem MethodTable.describe_valid (t : MethodTable σ) : t.describe.Valid := by
  refine .arr ?_
  intro v hv
  obtain ⟨m, -, rfl⟩ := List.mem_map.mp hv
  exact m.describe_valid

/-- An error object with no data, or with one text for data. -/
theorem ErrorBody.valid_of_text {e : ErrorBody} (hcode : Width.signed32.holds e.code = true)
    (hdata : ∀ d, e.data? = some d → ∃ key text, d = .object [(key, .str text)]) : e.Valid := by
  refine ⟨hcode, ?_⟩
  intro d hd
  obtain ⟨key, text, rfl⟩ := hdata d hd
  exact Json.object_valid (List.forall_mem_singleton.mpr (.str text))

/-- The error object that a fault is answered with. -/
theorem Fault.Valid.toErrorBody {f : Fault} (hf : f.Valid) : f.toErrorBody.Valid := by
  cases f with
  | remote e => exact hf
  | parse _ | invalidRequest _ | methodNotFound _ | invalidParams _ =>
      exact ErrorBody.valid_of_text rfl nofun
  | unauthenticated _ | internal _ | invalidSignature _ _ | serialization _ | transport _
  | usage _ =>
      refine ErrorBody.valid_of_text rfl ?_
      rintro d ⟨⟩
      exact ⟨_, _, rfl⟩

theorem ErrorBody.Valid.withoutData {e : ErrorBody} (he : e.Valid) : e.withoutData.Valid :=
  ⟨he.code, nofun⟩

/-- A value and a fault about the call are passed on, and other faults become texts. -/
theorem Method.conclude_valid (m : Method σ) {o : Outcome} (ho : o.Valid) :
    ResultValid (m.conclude o) := by
  cases hconclude : m.conclude o with
  | ok v =>
      rw [(Method.value_of_conclude hconclude).1] at ho
      exact ho
  | error f =>
      rcases Method.fault_of_conclude hconclude with ⟨hfault, -⟩ | ⟨detail, rfl⟩
      · rw [hfault] at ho
        exact ho
      · trivial

namespace Service

variable (s : Service σ) (authenticated : Bool)

/-- An error object can be sent if what its fault carries can be, redacted or not. -/
theorem errorBody_valid {f : Fault} (hf : f.Valid) : (s.errorBody f).Valid := by
  have hbody := hf.toErrorBody
  unfold errorBody
  split
  · exact hbody
  · split
    · exact hbody
    · exact hbody.withoutData

/-- What a call is carried out to has values as programs have them. -/
theorem Carried.valid (hs : s.HandlersValid) {c : Call} {st st' : σ} {r : Except Fault Json}
    {called : List (Invocation σ)} (h : s.Carried authenticated c st r st' called) :
    ResultValid r := by
  cases h with
  | listing _ _ _ => exact s.table.describe_valid
  | unknown _ _ => trivial
  | refused _ _ _ => trivial
  | misfit _ _ hparams =>
      obtain ⟨reason, rfl⟩ := Method.invalidParams_of_checkParams hparams
      trivial
  | @invoked m hfind _ _ =>
      exact m.conclude_valid (hs m (List.mem_of_find?_eq_some hfind) _ c.params st)

/-- What a call ends in has values as programs have them. -/
theorem carryOut_valid (hs : s.HandlersValid) (c : Call) (st : σ) :
    ResultValid ((s.carryOut c authenticated).value st) :=
  (carryOut_carried s authenticated c st).valid s authenticated hs

/-! ## Answers to a single call -/

/-- A body that holds a single call is answered with the response to it. -/
theorem answerText_of_call {body : ByteArray} {c : Call} (h : Client.ReadAs body c) (st : σ) :
    (s.answerText body authenticated).value st
        = ((s.answerCall c authenticated).value st).encode
      ∧ (s.answerText body authenticated).after st = (s.carryOut c authenticated).after st := by
  obtain ⟨v, hdecode, hcall⟩ := h
  refine ⟨?_, ?_⟩
  · rw [answerText_value, answer_of_single s authenticated hdecode]
    show ((s.answerEnvelope v authenticated).value st).response.encode = _
    unfold answerEnvelope
    rw [hcall]
    rfl
  · show (s.answer body authenticated).after st = _
    rw [answer_after_eq_answerAll, hdecode]
    show (s.answerAll authenticated [v]).after st = _
    unfold answerAll
    rw [Act.after_bind, answerEnvelope_after_of_call s authenticated hcall]
    rfl

end Service

namespace Client

/-! ## Calls -/

/-- What a client gets to see of what a call ended in: a result as it is, and a fault as the error
    object that it is answered with. -/
def shown (s : Service σ) : Except Fault Json → Except Fault Json
  | .ok r => .ok r
  | .error f => .error (.remote (s.errorBody f))

/-- The response to a call means what the call ended in. -/
theorem meaning_respond {s : Service σ} {c : Call} {r : Except Fault Json}
    (hvalid : ResultValid r) (hid : c.responseId.toJson.Valid)
    (hsame : Id.ofJson c.responseId.toJson = c.responseId)
    (hdata : ∀ e, (s.respond c r).error? = some e → e.data? ≠ some .null)
    (hdepth : (s.respond c r).toJson.depth ≤ Reader.maxDepth) :
    meaning (s.respond c r).encode.toUTF8 = shown s r := by
  unfold meaning
  cases r with
  | ok v =>
      rw [show s.respond c (.ok v) = .success c.version v c.responseId from rfl,
        Response.decode_success hid hsame hvalid hdepth]
      rfl
  | error f =>
      rw [show s.respond c (.error f) = .failure c.version (s.errorBody f) c.responseId from rfl,
        Response.decode_failure hid hsame (s.errorBody_valid hvalid) (hdata _ rfl) hdepth]
      rfl

/-- A client that is led straight to a service gets what the service's pipeline ends in for the
    call with the client's next id: its result, or the error object that the service puts into the
    response. The call fails in no other way. The application is left as the pipeline leaves it, and
    the client has taken one id.

    Handlers end with values as programs have them, request and response are nested no deeper than
    readers go, and an error object carries no data that are present and `null`. -/
theorem call_transparent {s : Service σ} (hs : s.HandlersValid) (authenticated : Bool) {c : Client}
    {params : Params} (hcheck : check c.version params = .ok ()) (hparams : params.toJson.Valid)
    (method : String) (st : σ)
    (hrequest : (Request.make c.version method params c.takeId.1).toJson.depth ≤ Reader.maxDepth)
    (hresponse : ((s.answerCall (c.nextCall method params) authenticated).value st).toJson.depth
      ≤ Reader.maxDepth)
    (hdata : ∀ e, ((s.answerCall (c.nextCall method params) authenticated).value st).error?
      = some e → e.data? ≠ some .null) :
    let pipeline := s.carryOut (c.nextCall method params) authenticated
    let response := (s.answerCall (c.nextCall method params) authenticated).value st
    let call := c.call (Carrier.direct s authenticated) method params
    (∀ r, pipeline.value st = .ok r → (call.value st).1 = .ok r) ∧
      (∀ f, pipeline.value st = .error f →
        (call.value st).1 = .error (.remote (s.errorBody f)) ∧
          response.error? = some (s.errorBody f)) ∧
      (∀ f, (call.value st).1 = .error f → ∃ e, f = .remote e) ∧
      call.after st = pipeline.after st ∧ (call.value st).2 = c.takeId.2 := by
  rw [s.answerCall_value] at hresponse hdata
  intro pipeline response call
  obtain ⟨hvalue, hafter⟩ := call_eq hcheck (Carrier.direct s authenticated) method st
  obtain ⟨htext, hstate⟩ := s.answerText_of_call authenticated
    (callBody_readAs hcheck method hparams hrequest) st
  have hanswer : response = s.respond (c.nextCall method params) (pipeline.value st) :=
    s.answerCall_value authenticated _ st
  have hsend : ((Carrier.direct s authenticated).send
      (callBody c.version method params c.takeId.1)).value st = .ok response.encode.toUTF8 :=
    congrArg (fun text : String => Except.ok text.toUTF8) htext
  have hcall : (call.value st).1 = shown s (pipeline.value st) := by
    have hid : (c.nextCall method params).responseId.toJson.Valid := c.nextId_valid
    -- what the client makes of the bytes is what the service meant by them
    have hmeaning : meaning response.encode.toUTF8 = shown s (pipeline.value st) := by
      rw [hanswer]
      exact meaning_respond (s.carryOut_valid authenticated hs _ st) hid rfl hdata hresponse
    have hread (reply : ByteArray) : (Except.ok reply).bind meaning = meaning reply := rfl
    rw [hvalue, hsend, hread, hmeaning]
  rw [hcall, hanswer]
  refine ⟨?_, ?_, ?_, hafter.trans hstate, congrArg Prod.snd hvalue⟩
  · intro r hr
    rw [hr]
    rfl
  · intro f hf
    rw [hf]
    exact ⟨rfl, rfl⟩
  · intro f hf
    cases hend : pipeline.value st with
    | ok r =>
        rw [hend] at hf
        exact nomatch hf
    | error g =>
        rw [hend] at hf
        exact ⟨_, (Except.error.inj hf).symm⟩

/-- A service that counts its calls. One method returns `null`; the other fails, and callers are
    not told why. -/
def terseService : Service Nat where
  table := ⟨[
    Method.make (.wildcard "fail") (fun _ _ n => (.fault (.internal "disk full"), n + 1)) {},
    Method.make (.wildcard "touch") (fun _ _ n => (.value .null, n + 1)) {}]⟩
  policy := { redactInternal := true }

/-- A result that is `null` arrives as a result in version 1.0, and an error object without its
    data in version 2.0. -/
theorem terse_call_transparent :
    terseService.HandlersValid ∧
      (∃ next, (call ⟨.v1, 3⟩ (Carrier.direct terseService false) "touch" (.positional [])).value 8
        = (.ok .null, next)) ∧
      ((call ⟨.v2, 3⟩ (Carrier.direct terseService false) "fail" (.named [])).value 8).1
        = .error (.remote ⟨-32603, "Internal error", none⟩) ∧
      (call ⟨.v2, 3⟩ (Carrier.direct terseService false) "fail" (.named [])).after 8 = 9 := by
  have hs : terseService.HandlersValid := by
    intro m hm ctx params st
    rcases List.mem_pair.mp hm with rfl | rfl
    · trivial
    · exact .null
  have htouch : check (⟨.v1, 3⟩ : Client).version (.positional []) = .ok () := rfl
  have hfail : check (⟨.v2, 3⟩ : Client).version (.named []) = .ok () := rfl
  have hpositional : (Params.positional []).toJson.Valid := .arr (List.forall_mem_nil _)
  have hnamed : (Params.named []).toJson.Valid := .obj .nil (List.forall_mem_nil _)
  have hheld : ∀ e : ErrorBody, some ⟨-32603, "Internal error", none⟩ = some e →
      e.data? ≠ some .null := by
    rintro e ⟨⟩
    exact nofun
  obtain ⟨hok, -, -, -, -⟩ := call_transparent hs false htouch hpositional "touch" 8
    (by decide) (by decide) nofun
  obtain ⟨-, herror, -, hafter, -⟩ := call_transparent hs false hfail hnamed "fail" 8
    (by decide) (by decide) hheld
  exact ⟨hs, ⟨_, Prod.ext (hok .null rfl) rfl⟩, (herror _ rfl).1, hafter⟩

end Client

end Switchboard
