import Switchboard.Proofs.Validation
import Switchboard.Proofs.Series

/-!
# What is counted and what is answered

A metered service measures at several places: where a batch comes in, where a
request has been carried out, and where an error object is made up, which
happens to requests, to envelopes that are no requests and to bodies of which
nothing can be made. Nothing is counted twice and nothing is left out, because
measurements and replies BALANCE (`Balanced`): what is measured of one envelope
balances with the one reply to it, and measurements that follow each other
balance with the replies in a row.

Where a measurement is made depends on neither the wording of an error object
nor on whether an answer is wanted.
-/

namespace Switchboard

variable {σ : Type}

/-- A body and whether its sender is known. -/
structure Message where
  body : ByteArray
  authenticated : Bool

/-- Nothing can be made of the body of a message. -/
def Message.isUndecodable (m : Message) : Bool := !(Body.decode m.body).isOk

/-- The envelopes in the body of a message. -/
def Message.envelopes (m : Message) : List Json := Body.envelopes (Body.decode m.body)

/-- The body of a message is a batch. -/
def Message.IsBatch (m : Message) : Prop :=
  ∃ items, items ≠ [] ∧ Json.ofBytes? m.body = some (.arr items)

/-- An envelope is no request. -/
def Json.isRejected (v : Json) : Bool := !(Call.ofJson v).isOk

/-- The code of the error of a reply. -/
def Reply.code? (r : Reply) : Option ℤ := r.response.code?

/-- A reply carries a result. -/
def Reply.hasResult (r : Reply) : Bool := r.response.result?.isSome

/-! ## Balance -/

/-- What is measured balances with what is answered to some bodies and envelopes. The codes that
    are counted are those of the replies, in order. A request is counted as a success for each
    reply with a result, and an error object is sent for each failed request, each body of which
    nothing can be made and each envelope that is no request. The batches that are counted have the
    given sizes, and requests end in one of two ways. -/
structure Balanced (l : List Measurement) (undecodable rejected : ℕ) (replies : List Reply)
    (sizes : List ℕ) : Prop where
  codes : l.filterMap Measurement.code? = replies.filterMap Reply.code?
  successes : (l.filterMap Measurement.outcome?).countP (fun o => o.2 = "success")
    = replies.countP Reply.hasResult
  failures : (l.filterMap Measurement.outcome?).countP (fun o => o.2 = "error") + undecodable
    + rejected = (l.filterMap Measurement.code?).length
  sizes : l.filterMap Measurement.batchSize? = sizes
  statuses : ∀ o ∈ l.filterMap Measurement.outcome?, o.2 = "success" ∨ o.2 = "error"

theorem balanced_nil : Balanced [] 0 0 [] [] := ⟨rfl, rfl, rfl, rfl, nofun⟩

/-- What balances part by part balances as a whole. -/
theorem Balanced.append {l l' : List Measurement} {u u' r r' : ℕ} {replies replies' : List Reply}
    {sizes sizes' : List ℕ} (h : Balanced l u r replies sizes)
    (h' : Balanced l' u' r' replies' sizes') :
    Balanced (l ++ l') (u + u') (r + r') (replies ++ replies') (sizes ++ sizes') where
  codes := by rw [List.filterMap_append, List.filterMap_append, h.codes, h'.codes]
  successes := by
    rw [List.filterMap_append, List.countP_append, List.countP_append, h.successes, h'.successes]
  failures := by
    rw [List.filterMap_append, List.filterMap_append, List.countP_append, List.length_append,
      ← h.failures, ← h'.failures]
    omega
  sizes := by rw [List.filterMap_append, h.sizes, h'.sizes]
  statuses := by
    intro o ho
    rw [List.filterMap_append] at ho
    exact (List.mem_append.mp ho).elim (h.statuses o) (h'.statuses o)

/-- One error object, for one body or envelope that is at fault. -/
theorem balanced_error {reply : Reply} {code : ℤ} {u r : ℕ} (hone : u + r = 1)
    (hreply : reply.FailsWith code) : Balanced [.error code] u r [reply] [] where
  codes := by
    have hcode : reply.code? = some code := hreply.2
    rw [List.filterMap_cons_some hcode]
    rfl
  successes := by
    rw [List.countP_singleton, Reply.hasResult, hreply.1]
    rfl
  failures := (Nat.zero_add u).symm ▸ hone
  sizes := rfl
  statuses := nofun

/-- One request with a result. -/
theorem balanced_success {reply : Reply} {v : Json} (method : String)
    (hresult : reply.response.result? = some v) (hcode : reply.code? = none) :
    Balanced [.request method "success" none] 0 0 [reply] [] where
  codes := by
    rw [List.filterMap_cons_none hcode]
    rfl
  successes := by
    rw [List.countP_singleton, Reply.hasResult, hresult]
    rfl
  failures := rfl
  sizes := rfl
  statuses := by
    intro o ho
    obtain rfl : o = (method, "success") := List.mem_singleton.mp ho
    exact Or.inl rfl

/-- One request that failed, and its error object. -/
theorem balanced_failure {reply : Reply} {code : ℤ} (method : String)
    (hreply : reply.FailsWith code) :
    Balanced [.request method "error" none, .error code] 0 0 [reply] [] where
  codes := by
    have hcode : reply.code? = some code := hreply.2
    rw [List.filterMap_cons_some hcode]
    rfl
  successes := by
    rw [List.countP_singleton, Reply.hasResult, hreply.1]
    rfl
  failures := rfl
  sizes := rfl
  statuses := by
    intro o ho
    obtain rfl : o = (method, "error") := List.mem_singleton.mp ho
    exact Or.inr rfl

namespace Service

variable (s : Service σ)

/-! ## What is measured -/

/-- What is measured of a call with this result. -/
def measured (c : Call) (r : Except Fault Json) : List Measurement :=
  .request c.method (status r) none :: match r with
    | .ok _ => []
    | .error f => [.error f.toErrorBody.code]

/-- Carrying out a call measures nothing. -/
theorem carryOut_measurements (c : Call) (authenticated : Bool) (st : σ) :
    (s.carryOut c authenticated).measurements st = [] := by
  rcases s.carryOut_cases authenticated c with ⟨r, h, -⟩ | ⟨m, h, -⟩
  · rw [h]
    rfl
  · rw [h]
    rfl

section Metered

variable {s} (hmetered : s.isMetered = true)
include hmetered

theorem measure_measurements (m : Measurement) (st : σ) :
    (s.measure m).measurements st = [m] := by
  unfold measure
  rw [hmetered]
  rfl

/-- A failure is counted once, under the code of its fault. -/
theorem fail_measurements (version : Version) (f : Fault) (id : Id) (st : σ) :
    (s.fail version f id).measurements st = [.error f.toErrorBody.code] := by
  unfold fail
  rw [Act.measurements_bind, Act.measurements_bind, Act.measurements_note,
    measure_measurements hmetered]
  rfl

/-- What is measured of a call depends on what it ends in and on nothing else. -/
theorem answerCall_measurements (c : Call) (authenticated : Bool) (st : σ) :
    (s.answerCall c authenticated).measurements st
      = measured c ((s.carryOut c authenticated).value st) := by
  unfold answerCall
  rw [Act.measurements_inside, Act.measurements_bind, Act.measurements_bind,
    carryOut_measurements, measure_measurements hmetered]
  cases (s.carryOut c authenticated).value st with
  | ok v => rfl
  | error f => exact congrArg (List.cons _) (fail_measurements hmetered _ f _ _)

theorem answerEnvelope_measurements_of_call {v : Json} {c : Call} (hcall : Call.ofJson v = .ok c)
    (authenticated : Bool) (st : σ) :
    (s.answerEnvelope v authenticated).measurements st
      = measured c ((s.carryOut c authenticated).value st) := by
  unfold answerEnvelope
  rw [hcall, Act.measurements_bind, answerCall_measurements hmetered, Act.measurements_pure,
    List.append_nil]

/-- An envelope that is no request is counted as one invalid request. -/
theorem answerEnvelope_measurements_of_rejection {v : Json} {r : Rejection}
    (hreject : Call.ofJson v = .error r) (authenticated : Bool) (st : σ) :
    (s.answerEnvelope v authenticated).measurements st = [.error (-32600)] := by
  unfold answerEnvelope
  rw [hreject, Act.measurements_bind, Act.measurements_bind, Act.measurements_note,
    fail_measurements hmetered, Act.measurements_pure]
  rfl

/-! ## Single bodies -/

/-- What is measured of an envelope balances with the reply to it. -/
theorem envelope_balanced (v : Json) (authenticated : Bool) (st : σ) :
    Balanced ((s.answerEnvelope v authenticated).measurements st) 0 ([v].countP Json.isRejected)
      [(s.answerEnvelope v authenticated).value st] [] := by
  cases hcall : Call.ofJson v with
  | error r =>
      have hrejected : [v].countP Json.isRejected = 1 := by
        rw [List.countP_singleton, Json.isRejected, hcall]
        rfl
      rw [answerEnvelope_measurements_of_rejection hmetered hcall,
        s.answerEnvelope_value_of_rejection authenticated hcall, hrejected]
      exact balanced_error rfl ⟨rfl, s.failure_code? r.version r.fault r.id⟩
  | ok c =>
      have hrejected : [v].countP Json.isRejected = 0 := by
        rw [List.countP_singleton, Json.isRejected, hcall]
        rfl
      rw [answerEnvelope_measurements_of_call hmetered hcall,
        s.answerEnvelope_value_of_call authenticated hcall, hrejected]
      -- the result decides both how the request is counted and what the reply carries
      cases (s.carryOut c authenticated).value st with
      | ok w => exact balanced_success c.method rfl rfl
      | error f => exact balanced_failure c.method (s.failsWith_of_fault c f)

/-- What is measured of envelopes in a row balances with the replies to them. -/
theorem answerAll_balanced (items : List Json) (authenticated : Bool) (st : σ) :
    Balanced ((s.answerAll authenticated items).measurements st) 0
      (items.countP Json.isRejected) ((s.answerAll authenticated items).value st) [] := by
  induction items generalizing st with
  | nil => exact balanced_nil
  | cons v rest ih =>
      have hcount : (v :: rest).countP Json.isRejected
          = [v].countP Json.isRejected + rest.countP Json.isRejected := by
        rw [← List.countP_append]
        rfl
      unfold answerAll
      rw [Act.measurements_bind, Act.measurements_bind, Act.measurements_pure, List.append_nil,
        Act.value_bind, Act.value_bind, Act.value_pure, hcount]
      exact (envelope_balanced hmetered v authenticated st).append
        (ih ((s.answerEnvelope v authenticated).after st))

/-- What is measured of a body balances with the replies to it. -/
theorem answer_balanced (m : Message) (st : σ) :
    Balanced ((s.answer m.body m.authenticated).measurements st)
      ([m].countP Message.isUndecodable) (m.envelopes.countP Json.isRejected)
      ((s.answer m.body m.authenticated).value st).replies
      (if ((s.answer m.body m.authenticated).value st).isBatch
        then [((s.answer m.body m.authenticated).value st).replies.length] else []) := by
  obtain ⟨body, authenticated⟩ := m
  unfold Message.envelopes answer
  rw [Act.measurements_inside, Act.value_inside, List.countP_singleton, Message.isUndecodable]
  dsimp only
  match Body.decode body with
  | .error u =>
      unfold answerBody
      rw [Act.measurements_bind, Act.measurements_note, Act.measurements_bind,
        fail_measurements hmetered, Act.measurements_pure]
      exact balanced_error rfl ⟨rfl, s.failure_code? _ _ _⟩
  | .ok (.single v) =>
      unfold answerBody
      rw [Act.measurements_bind, Act.measurements_pure, List.append_nil]
      exact envelope_balanced hmetered v authenticated st
  | .ok (.batch items) =>
      have hlength : ((s.answerAll authenticated items).value st).length = items.length := by
        rw [answerAll_value, List.length_map, ← List.length_map Exchange.envelope,
          exchanges_envelope]
      -- the size of a batch is measured before its items are answered
      have hbatch (n : ℕ) : Balanced [.batch n] 0 0 [] [n] := ⟨rfl, rfl, rfl, rfl, nofun⟩
      unfold answerBody
      rw [Act.measurements_bind, Act.measurements_note, Act.measurements_bind,
        measure_measurements hmetered, Act.measurements_bind, Act.measurements_pure,
        List.append_nil, Act.value_bind, Act.value_bind, Act.value_bind, Act.value_pure,
        measure_after, Act.after_note, ← hlength]
      have hboth := (hbatch ((s.answerAll authenticated items).value st).length).append
        (answerAll_balanced hmetered items authenticated st)
      rw [Nat.zero_add (items.countP Json.isRejected)] at hboth
      exact hboth

end Metered

/-! ## Messages in a row -/

/-- Answers messages in order. -/
def answerMessages : List Message → Act σ (List Replies)
  | [] => Act.pure []
  | m :: rest => do
    let o ← s.answer m.body m.authenticated
    let os ← answerMessages rest
    return o :: os

/-- What is recorded while messages are answered, from the beginning of the service on. -/
def recording (messages : List Message) (st : σ) : Recording :=
  .ofMeasurements (s.initialMeasurements ++ (s.answerMessages messages).measurements st)

/-- What is measured of messages in a row balances with the replies to them. -/
theorem answerMessages_balanced {s : Service σ} (hmetered : s.isMetered = true)
    (messages : List Message) (st : σ) :
    Balanced ((s.answerMessages messages).measurements st)
      (messages.countP Message.isUndecodable)
      ((messages.flatMap Message.envelopes).countP Json.isRejected)
      (((s.answerMessages messages).value st).flatMap Replies.replies)
      ((((s.answerMessages messages).value st).filter Replies.isBatch).map fun o =>
        o.replies.length) := by
  induction messages generalizing st with
  | nil => exact balanced_nil
  | cons m rest ih =>
      have hcount : (m :: rest).countP Message.isUndecodable
          = [m].countP Message.isUndecodable + rest.countP Message.isUndecodable := by
        rw [← List.countP_append]
        rfl
      have hboth := (answer_balanced hmetered m st).append
        (ih ((s.answer m.body m.authenticated).after st))
      unfold answerMessages
      rw [Act.measurements_bind, Act.measurements_bind, Act.measurements_pure, List.append_nil,
        Act.value_bind, Act.value_bind, Act.value_pure, hcount, List.flatMap_cons,
        List.flatMap_cons, List.countP_append, List.filter_cons]
      -- only the answer to a batch has its size on record
      cases hbatch : ((s.answer m.body m.authenticated).value st).isBatch with
      | true =>
          rw [hbatch] at hboth
          exact hboth
      | false =>
          rw [hbatch] at hboth
          exact hboth

/-- The replies to a batch are a batch, and those to any other body are not. -/
theorem answer_isBatch_iff (m : Message) (st : σ) :
    ((s.answer m.body m.authenticated).value st).isBatch = true ↔ m.IsBatch := by
  obtain ⟨body, authenticated⟩ := m
  unfold Message.IsBatch
  dsimp only
  cases hvalue : Json.ofBytes? body with
  | none =>
      rw [s.answer_of_undecodable authenticated (Body.decode_of_none hvalue)]
      exact ⟨nofun, fun ⟨_, _, h⟩ => nomatch h⟩
  | some v =>
      have hdecode := Body.decode_of_some hvalue
      match v with
      | .arr [] =>
          rw [s.answer_of_undecodable authenticated hdecode]
          exact ⟨nofun, fun ⟨_, hne, h⟩ => absurd (Json.arr.inj (Option.some.inj h)).symm hne⟩
      | .arr (w :: rest) =>
          rw [s.answer_of_batch authenticated hdecode]
          exact ⟨fun _ => ⟨w :: rest, List.cons_ne_nil w rest, rfl⟩, fun _ => rfl⟩
      | .null | .bool _ | .num _ | .str _ | .obj _ =>
          rw [s.answer_of_single authenticated hdecode]
          exact ⟨nofun, fun ⟨_, _, h⟩ => nomatch h⟩

/-- The replies to a message are a batch exactly if its body is one. -/
theorem answerMessages_isBatch (messages : List Message) (st : σ) :
    List.Forall₂ (fun m o => o.isBatch = true ↔ Message.IsBatch m) messages
      ((s.answerMessages messages).value st) := by
  induction messages generalizing st with
  | nil => exact .nil
  | cons m rest ih => exact .cons (s.answer_isBatch_iff m st) (ih _)

end Service

/-! ## Two runs -/

/-- Two envelopes are both requests of one method that are carried out alike by two services, or
    neither of them is a request. -/
inductive Service.TreatsAlike (s s' : Service σ) (authenticated : Bool) : Json → Json → Prop where
  | call {v v' : Json} {c c' : Call} (hcall : Call.ofJson v = .ok c)
      (hcall' : Call.ofJson v' = .ok c') (hmethod : c'.method = c.method)
      (hcarry : s'.carryOut c' authenticated = s.carryOut c authenticated) :
      TreatsAlike s s' authenticated v v'
  | rejected {v v' : Json} {r r' : Rejection} (hreject : Call.ofJson v = .error r)
      (hreject' : Call.ofJson v' = .error r') : TreatsAlike s s' authenticated v v'

/-- Two bodies are of one form, with envelopes in a relation. -/
inductive Body.Alike (R : Json → Json → Prop) :
    Except Undecodable Body → Except Undecodable Body → Prop where
  | undecodable (u : Undecodable) : Alike R (.error u) (.error u)
  | single {v v' : Json} (h : R v v') : Alike R (.ok (.single v)) (.ok (.single v'))
  | batch {items items' : List Json} (h : List.Forall₂ R items items') :
      Alike R (.ok (.batch items)) (.ok (.batch items'))

/-- Two messages come from senders of one sort, and their bodies are of one form, with envelopes in
    a relation. -/
structure Message.Alike (R : Bool → Json → Json → Prop) (m m' : Message) : Prop where
  sender : m'.authenticated = m.authenticated
  body : Body.Alike (R m.authenticated) (Body.decode m.body) (Body.decode m'.body)

namespace Service

variable {s s' : Service σ} (hmetered : s.isMetered = true) (hmetered' : s'.isMetered = true)
include hmetered hmetered'

/-- Envelopes that are treated alike leave the same trace. -/
theorem answerEnvelope_sameTrace {authenticated : Bool} {v v' : Json}
    (h : s.TreatsAlike s' authenticated v v') :
    (s.answerEnvelope v authenticated).SameTrace (s'.answerEnvelope v' authenticated) := by
  intro st
  cases h with
  | call hcall hcall' hmethod hcarry =>
      rw [answerEnvelope_measurements_of_call hmetered hcall,
        answerEnvelope_measurements_of_call hmetered' hcall',
        s.answerEnvelope_after_of_call authenticated hcall,
        s'.answerEnvelope_after_of_call authenticated hcall', hcarry]
      refine ⟨?_, rfl⟩
      unfold measured
      rw [hmethod]
  | rejected hreject hreject' =>
      rw [answerEnvelope_measurements_of_rejection hmetered hreject,
        answerEnvelope_measurements_of_rejection hmetered' hreject',
        s.answerEnvelope_after_of_rejection authenticated hreject,
        s'.answerEnvelope_after_of_rejection authenticated hreject']
      exact ⟨rfl, rfl⟩

theorem answerAll_sameTrace {authenticated : Bool} {items items' : List Json}
    (h : List.Forall₂ (s.TreatsAlike s' authenticated) items items') :
    (s.answerAll authenticated items).SameTrace (s'.answerAll authenticated items') := by
  induction h with
  | nil => exact Act.sameTrace_refl _
  | cons hv _ ih =>
      refine (answerEnvelope_sameTrace hmetered hmetered' hv).bind fun _ _ => ?_
      exact ih.bind fun _ _ => Act.sameTrace_pure _ _

theorem answerBody_sameTrace {authenticated : Bool} {b b' : Except Undecodable Body}
    (h : Body.Alike (s.TreatsAlike s' authenticated) b b') :
    (s.answerBody authenticated b).SameTrace (s'.answerBody authenticated b') := by
  have hmeasure (x : Measurement) : (s.measure x).SameTrace (s'.measure x) := by
    unfold measure
    rw [hmetered, hmetered']
    exact Act.sameTrace_refl _
  have hnote (n n' : Notice) : (Act.note n : Act σ Unit).SameTrace (Act.note n') :=
    fun _ => ⟨rfl, rfl⟩
  cases h with
  | undecodable u =>
      have hfail : (s.fail (undecodableVersion u) u.fault .null).SameTrace
          (s'.fail (undecodableVersion u) u.fault .null) :=
        (hnote _ _).bind fun _ _ => (hmeasure _).bind fun _ _ => Act.sameTrace_pure _ _
      exact (hnote _ _).bind fun _ _ => hfail.bind fun _ _ => Act.sameTrace_pure _ _
  | single hv =>
      exact (answerEnvelope_sameTrace hmetered hmetered' hv).bind fun _ _ => Act.sameTrace_pure _ _
  | batch hitems =>
      have hall := answerAll_sameTrace hmetered hmetered' hitems
      refine (hnote _ _).bind fun _ _ => Act.SameTrace.bind ?_ fun _ _ =>
        hall.bind fun _ _ => Act.sameTrace_pure _ _
      rw [hitems.length_eq]
      exact hmeasure _

theorem answer_sameTrace {m m' : Message} (h : m.Alike (s.TreatsAlike s') m') :
    (s.answer m.body m.authenticated).SameTrace (s'.answer m'.body m'.authenticated) := by
  unfold answer
  rw [h.sender]
  exact (answerBody_sameTrace hmetered hmetered' h.body).inside _ _

/-- Messages that are alike, with envelopes treated alike, leave the same trace. -/
theorem answerMessages_sameTrace {messages messages' : List Message}
    (h : List.Forall₂ (Message.Alike (s.TreatsAlike s')) messages messages') :
    (s.answerMessages messages).SameTrace (s'.answerMessages messages') := by
  induction h with
  | nil => exact Act.sameTrace_refl _
  | cons hm _ ih =>
      refine (answer_sameTrace hmetered hmetered' hm).bind fun _ _ => ?_
      exact ih.bind fun _ _ => Act.sameTrace_pure _ _

end Service

/-! ## Redaction and ids -/

/-- The service that redacts internal failures, or the one that does not. -/
def Service.redacting (s : Service σ) (redact : Bool) : Service σ :=
  { s with policy := { s.policy with redactInternal := redact } }

/-- Two envelopes are the same but for their ids. -/
def Json.SameButId (v v' : Json) : Prop := ∀ key, key ≠ "id" → v'.get? key = v.get? key

/-- The handler of a method does not look at the ids of calls. -/
def Method.IgnoresIds (m : Method σ) : Prop :=
  ∀ ctx id? params, m.handler { ctx with id? := id? } params = m.handler ctx params

theorem Json.SameButId.symm {v v' : Json} (h : v.SameButId v') : v'.SameButId v :=
  fun key hkey => (h key hkey).symm

/-- An envelope is the same without its id. -/
theorem Json.sameButId_tail (id : Json) (members : Members) :
    Json.SameButId (.obj (("id", id) :: members)) (.obj members) := by
  intro key hkey
  show members.lookup key = List.lookup key (("id", id) :: members)
  rw [List.lookup_cons, beq_false_of_ne hkey]

/-- The call that an envelope makes is the same but for the id. -/
theorem Json.SameButId.ofJson {v v' : Json} (h : v.SameButId v') {c : Call}
    (hcall : Call.ofJson v = .ok c) :
    Call.ofJson v' = .ok { c with id? := (v'.get? "id").map Id.ofJson } := by
  obtain ⟨hmethod, hparams, hnamed, hversion, -⟩ := Call.ofJson_eq_ok_iff.mp hcall
  refine Call.ofJson_eq_ok_iff.mpr ⟨?_, ?_, hnamed, ?_, rfl⟩
  · rw [h "method" (by decide), hmethod]
  · rw [h "params" (by decide), hparams]
  · show c.version = Version.ofMember (v'.get? "jsonrpc")
    rw [h "jsonrpc" (by decide)]
    exact hversion

namespace Service

variable {s : Service σ}

/-- A handler that does not look at ids makes calls with different ids the same. -/
theorem carryOut_of_ignoresIds (hignores : ∀ m ∈ s.table.methods, m.IgnoresIds) (c : Call)
    (id? : Option Id) (authenticated : Bool) :
    s.carryOut { c with id? := id? } authenticated = s.carryOut c authenticated := by
  unfold carryOut
  cases hfind : s.table.find? c.method with
  | none => rfl
  | some m =>
      have hignore : m.IgnoresIds := hignores m (List.mem_of_find?_eq_some hfind)
      have hinvoke : invoke m { c with id? := id? } authenticated = invoke m c authenticated :=
        invoke_congr (hignore (m.context c authenticated) id? c.params)
      dsimp only
      rw [hinvoke]

/-- Where no method looks at ids, envelopes that differ in nothing else are treated alike. -/
theorem treatsAlike_of_sameButId (hignores : ∀ m ∈ s.table.methods, m.IgnoresIds)
    (authenticated : Bool) {v v' : Json} (h : v.SameButId v') :
    s.TreatsAlike s authenticated v v' := by
  cases hcall : Call.ofJson v with
  | ok c =>
      exact .call hcall (h.ofJson hcall) rfl (carryOut_of_ignoresIds hignores c _ authenticated)
  | error r =>
      cases hcall' : Call.ofJson v' with
      | ok c' => exact nomatch hcall.symm.trans (h.symm.ofJson hcall')
      | error r' => exact .rejected hcall hcall'

/-- Whether details are redacted makes no difference to how an envelope is treated. -/
theorem treatsAlike_redacting (s : Service σ) (redact authenticated : Bool) (v : Json) :
    s.TreatsAlike (s.redacting redact) authenticated v v := by
  cases hcall : Call.ofJson v with
  | ok c => exact .call hcall hcall rfl rfl
  | error r => exact .rejected hcall hcall

end Service

theorem Body.alike_self {R : Json → Json → Prop} (hR : ∀ v, R v v)
    (b : Except Undecodable Body) : Body.Alike R b b := by
  match b with
  | .error u => exact .undecodable u
  | .ok (.single v) => exact .single (hR v)
  | .ok (.batch items) => exact .batch (List.forall₂_same.mpr fun v _ => hR v)

theorem Body.Alike.imp {R R' : Json → Json → Prop} (hR : ∀ v v', R v v' → R' v v')
    {b b' : Except Undecodable Body} (h : Body.Alike R b b') : Body.Alike R' b b' := by
  cases h with
  | undecodable u => exact .undecodable u
  | single hv => exact .single (hR _ _ hv)
  | batch hitems => exact .batch (hitems.imp hR)

/-! ## The accounts -/

/-- What is recorded accounts for the answers to messages. The counter of a code shows how many
    replies have an error of that code, and the counters of successful requests, over all methods,
    how many have a result. Failed requests, bodies of which nothing can be made and envelopes that
    are no requests add up to the errors of all codes. There are as many durations as requests are
    counted, under any labels and under all of them. The size of a batch is recorded once, as the
    number of replies to it, and the answers to batches are those that are recorded. -/
structure Recording.AccountsFor (r : Recording) (messages : List Message)
    (answers : List Replies) : Prop where
  errors : ∀ code, r.counter .errors (errorLabels code)
    = .int ((answers.flatMap Replies.replies).countP fun reply => reply.code? = some code)
  successes : r.sumOf .requests (hasStatus "success")
    = .int ((answers.flatMap Replies.replies).countP Reply.hasResult)
  failures : ∃ failed total : ℕ, r.sumOf .requests (hasStatus "error") = .int failed
    ∧ r.sumOf .errors (fun _ => true) = .int total
    ∧ failed + messages.countP Message.isUndecodable
        + (messages.flatMap Message.envelopes).countP Json.isRejected = total
  durations : ∀ labels, r.counter .requests labels = .int ((r.on .duration).amounts labels).count
  allDurations : r.sumOf .requests (fun _ => true) = .int (r.on .duration).length
  batches : (r.on .batchSize).map (·.amount?)
    = (answers.filter Replies.isBatch).map fun o => some (.int o.replies.length)
  isBatch : List.Forall₂ (fun m o => o.isBatch = true ↔ Message.IsBatch m) messages answers

/-- What balances with the answers to messages accounts for them. -/
theorem Balanced.accountsFor {l : List Measurement} {messages : List Message}
    {answers : List Replies} {sizes : List ℕ}
    (h : Balanced l (messages.countP Message.isUndecodable)
      ((messages.flatMap Message.envelopes).countP Json.isRejected)
      (answers.flatMap Replies.replies) sizes)
    (hsizes : sizes = (answers.filter Replies.isBatch).map fun o => o.replies.length)
    (hbatch : List.Forall₂ (fun m o => o.isBatch = true ↔ Message.IsBatch m) messages answers) :
    (Recording.ofMeasurements l).AccountsFor messages answers where
  errors := by
    intro code
    rw [Recording.counter_errors, h.codes, List.count_filterMap]
    refine congrArg (fun n : ℕ => Number.int n) (List.countP_congr ?_)
    intro reply _
    rw [beq_iff_eq, decide_eq_true_eq]
  successes := by
    rw [Recording.sumOf_requests h.statuses (Or.inl rfl), h.successes]
  failures := by
    refine ⟨_, _, Recording.sumOf_requests h.statuses (Or.inr rfl), Recording.sumOf_errors l, ?_⟩
    exact h.failures
  durations := Recording.counter_requests l
  allDurations := Recording.sumOf_all_requests l
  batches := by
    rw [Recording.amounts_batchSize, h.sizes, hsizes, List.map_map]
    rfl
  isBatch := hbatch

/-- What is measured when the service starts stands for no reply. -/
theorem Service.initialMeasurements_balanced {s : Service σ} (hmetered : s.isMetered = true) :
    Balanced s.initialMeasurements 0 0 [] [] := by
  unfold initialMeasurements
  rw [if_pos hmetered]
  exact ⟨rfl, rfl, rfl, rfl, nofun⟩

/-- Metrics account for replies. Whatever messages a metered service answers, and whatever its
    handlers do, what it records from the beginning on accounts for its answers. The record is the
    same whether internal failures are redacted or not. It is also the same for messages whose
    envelopes differ in their ids alone, so that others of them are notifications, as long as no
    handler looks at ids. -/
theorem Service.metrics_account_for_replies {s : Service σ} (hmetered : s.isMetered = true)
    (messages : List Message) (st : σ) :
    (s.recording messages st).AccountsFor messages ((s.answerMessages messages).value st)
      ∧ (∀ redact, (s.redacting redact).recording messages st = s.recording messages st)
      ∧ ∀ messages', (∀ m ∈ s.table.methods, m.IgnoresIds) →
          List.Forall₂ (Message.Alike fun _ => Json.SameButId) messages messages' →
          s.recording messages' st = s.recording messages st := by
  -- what the start measures stands in front of it all and for no reply
  have hbalanced := (initialMeasurements_balanced hmetered).append
    (answerMessages_balanced hmetered messages st)
  rw [Nat.zero_add, Nat.zero_add, List.nil_append, List.nil_append] at hbalanced
  refine ⟨hbalanced.accountsFor rfl (s.answerMessages_isBatch messages st), ?_, ?_⟩
  · intro redact
    have hmetered' : (s.redacting redact).isMetered = true := hmetered
    have hsame : (s.answerMessages messages).SameTrace
        ((s.redacting redact).answerMessages messages) := by
      refine answerMessages_sameTrace hmetered hmetered'
        (List.forall₂_same.mpr fun m _ => ⟨rfl, ?_⟩)
      exact Body.alike_self (s.treatsAlike_redacting redact m.authenticated) _
    unfold recording
    rw [(hsame st).1]
    rfl
  · intro messages' hignores halike
    have hsame : (s.answerMessages messages).SameTrace (s.answerMessages messages') := by
      refine answerMessages_sameTrace hmetered hmetered (halike.imp fun m m' h => ⟨h.sender, ?_⟩)
      exact h.body.imp fun v v' => treatsAlike_of_sameButId hignores m.authenticated
    unfold recording
    rw [(hsame st).1]

/-- A metered service with a method that answers and one that panics. -/
def meteredService : Service Nat where
  table := ⟨[Method.make (.wildcard "boom") (fun _ _ n => (.panic none, n)) {},
    Method.make (.wildcard "tick") (fun _ _ n => (.value (.ofInt n), n + 1)) {}]⟩
  isMetered := true

/-- No request, a call of each method, an empty batch and a text that is no JSON. -/
def mixedMessages : List Message :=
  [⟨("[1,\x7b\"id\":4,\"method\":\"tick\"\x7d,\x7b\"id\":5,\"method\":\"boom\"\x7d]").toUTF8,
      false⟩,
    ⟨"[]".toUTF8, true⟩, ⟨"\x7b".toUTF8, false⟩]

/-- The same with notifications in place of the calls. -/
def quietMessages : List Message :=
  [⟨"[1,\x7b\"method\":\"tick\"\x7d,\x7b\"method\":\"boom\"\x7d]".toUTF8, false⟩,
    ⟨"[]".toUTF8, true⟩, ⟨"\x7b".toUTF8, false⟩]

/-- Five replies, one of them with a result, are accounted for, with notifications as with calls. -/
theorem mixed_messages_accounted :
    meteredService.isMetered = true
      ∧ (∀ m ∈ meteredService.table.methods, m.IgnoresIds)
      ∧ List.Forall₂ (Message.Alike fun _ => Json.SameButId) mixedMessages quietMessages
      ∧ (meteredService.recording mixedMessages 0).counter .errors "code=-32600" = .int 2
      ∧ (meteredService.recording mixedMessages 0).counter .errors "code=-32603" = .int 1
      ∧ (meteredService.recording mixedMessages 0).sumOf .requests (hasStatus "success") = .int 1
      ∧ ((meteredService.recording mixedMessages 0).on .batchSize).map (·.amount?)
        = [some (.int 3)]
      ∧ meteredService.recording quietMessages 0 = meteredService.recording mixedMessages 0 := by
  obtain ⟨haccounts, -, hids⟩ :=
    Service.metrics_account_for_replies (s := meteredService) rfl mixedMessages 0
  have hignores : ∀ m ∈ meteredService.table.methods, m.IgnoresIds := by
    refine List.forall_mem_cons.mpr ⟨fun _ _ _ => rfl, List.forall_mem_singleton.mpr ?_⟩
    exact fun _ _ _ => rfl
  have hcalls : Body.decode (mixedMessages.headD ⟨ByteArray.empty, false⟩).body = .ok (.batch
      [.num (.int 1), .obj [("id", .num (.int 4)), ("method", .str "tick")],
        .obj [("id", .num (.int 5)), ("method", .str "boom")]]) := by decide +kernel
  have hnotifications : Body.decode (quietMessages.headD ⟨ByteArray.empty, false⟩).body
      = .ok (.batch [.num (.int 1), .obj [("method", .str "tick")],
        .obj [("method", .str "boom")]]) := by decide +kernel
  have hbatch : Body.Alike Json.SameButId
      (Body.decode (mixedMessages.headD ⟨ByteArray.empty, false⟩).body)
      (Body.decode (quietMessages.headD ⟨ByteArray.empty, false⟩).body) := by
    rw [hcalls, hnotifications]
    exact .batch (.cons (fun _ _ => rfl)
      (.cons (Json.sameButId_tail _ _) (.cons (Json.sameButId_tail _ _) .nil)))
  have halike : List.Forall₂ (Message.Alike fun _ => Json.SameButId)
      mixedMessages quietMessages := by
    refine .cons ⟨rfl, hbatch⟩ (List.forall₂_same.mpr fun m _ => ⟨rfl, ?_⟩)
    exact Body.alike_self (fun _ _ _ => rfl) _
  refine ⟨rfl, hignores, halike, ?_, ?_, ?_, ?_, hids quietMessages hignores halike⟩
  · rw [← show errorLabels (-32600) = "code=-32600" by decide +kernel, haccounts.errors]
    decide +kernel
  · rw [← show errorLabels (-32603) = "code=-32603" by decide +kernel, haccounts.errors]
    decide +kernel
  · exact haccounts.successes.trans (by decide +kernel)
  · exact haccounts.batches.trans (by decide +kernel)

end Switchboard
