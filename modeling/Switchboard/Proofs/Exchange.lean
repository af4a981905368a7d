import Switchboard.Proofs.Invocation

/-!
# Exchanges of a service

A service answers the envelopes of a body one after the other. An EXCHANGE
is one such step: the envelope, the application state before and after it,
the reply, and the calls of handlers that were made on the way.

The replies to a body are the replies of its exchanges, the state after it is
the state after the last of them, and the calls of handlers are theirs in a
row. What holds of every exchange in every state therefore holds of every
body, and `exchange_of_call` and `exchange_of_rejection` say what a single
exchange is like.
-/

namespace Switchboard

variable {σ : Type}

/-- One envelope and what came of it: the states before and after it, the reply, and the calls of
    handlers that it made. -/
structure Exchange (σ : Type) where
  envelope : Json
  before : σ
  reply : Reply
  after : σ
  invocations : List (Invocation σ)

/-- The state after some exchanges that begin in a state. -/
def Exchange.last (st : σ) (xs : List (Exchange σ)) : σ := xs.foldl (fun _ x => x.after) st

theorem Exchange.eq_pair_of_envelopes {xs : List (Exchange σ)} {v w : Json}
    (h : xs.map Exchange.envelope = [v, w]) :
    ∃ x y, xs = [x, y] ∧ x.envelope = v ∧ y.envelope = w := by
  obtain ⟨x, rest, rfl, hx, hrest⟩ := List.map_eq_cons_iff.mp h
  obtain ⟨y, rfl, hy⟩ := List.map_eq_singleton_iff.mp hrest
  exact ⟨x, y, rfl, hx, hy⟩

/-- The envelopes that are answered one by one when a body has been decoded. -/
def Body.envelopes : Except Undecodable Body → List Json
  | .error _ => []
  | .ok (.single v) => [v]
  | .ok (.batch items) => items

theorem Body.decode_of_none {body : ByteArray} (h : Json.ofBytes? body = none) :
    Body.decode body = .error .notJson := by
  unfold Body.decode
  rw [h]

theorem Body.decode_of_some {body : ByteArray} {v : Json} (h : Json.ofBytes? body = some v) :
    Body.decode body = Body.ofJson v := by
  unfold Body.decode
  rw [h]

namespace Service

variable (s : Service σ) (authenticated : Bool)

/-- What comes of an envelope in a state. -/
def exchange (v : Json) (st : σ) : Exchange σ where
  envelope := v
  before := st
  reply := (s.answerEnvelope v authenticated).value st
  after := (s.answerEnvelope v authenticated).after st
  invocations := ((s.logged.answerEnvelope v authenticated).after (st, [])).2

/-- What comes of envelopes in a row, each in the state that the one before left. -/
def exchanges : List Json → σ → List (Exchange σ)
  | [], _ => []
  | v :: rest, st =>
    let x := s.exchange authenticated v st
    x :: exchanges rest x.after

/-- The exchanges of a body. -/
def exchangesOf (body : ByteArray) (st : σ) : List (Exchange σ) :=
  s.exchanges authenticated (Body.envelopes (Body.decode body)) st

/-! ## Single exchanges -/

/-- A request leaves the state that carrying it out leaves. -/
theorem answerEnvelope_after_of_call {v : Json} {c : Call} (hcall : Call.ofJson v = .ok c)
    (st : σ) :
    (s.answerEnvelope v authenticated).after st = (s.carryOut c authenticated).after st := by
  unfold answerEnvelope
  rw [hcall, Act.after_bind, answerCall_after, Act.after_pure]

/-- An envelope that is no request leaves the state as it was. -/
theorem answerEnvelope_after_of_rejection {v : Json} {r : Rejection}
    (hreject : Call.ofJson v = .error r) (st : σ) :
    (s.answerEnvelope v authenticated).after st = st := by
  unfold answerEnvelope
  rw [hreject, Act.after_bind, Act.after_bind, fail_after, Act.after_pure, Act.after_note]

/-- The reply to a request is the response to what the call ends in. -/
theorem answerEnvelope_value_of_call {v : Json} {c : Call} (hcall : Call.ofJson v = .ok c)
    (st : σ) :
    (s.answerEnvelope v authenticated).value st
      = ⟨s.respond c ((s.carryOut c authenticated).value st), c.isNotification⟩ := by
  unfold answerEnvelope
  rw [hcall, Act.value_bind, answerCall_value, Act.value_pure]

/-- The reply to an envelope that is no request says why it is none. -/
theorem answerEnvelope_value_of_rejection {v : Json} {r : Rejection}
    (hreject : Call.ofJson v = .error r) (st : σ) :
    (s.answerEnvelope v authenticated).value st
      = ⟨.failure r.version (s.errorBody r.fault) r.id, false⟩ := by
  unfold answerEnvelope
  rw [hreject]
  rfl

/-- What comes of a request. -/
theorem exchange_of_call {v : Json} {c : Call} (hcall : Call.ofJson v = .ok c) (st : σ) :
    ∃ r st' called, Carried s authenticated c st r st' called
      ∧ s.exchange authenticated v st
        = ⟨v, st, ⟨s.respond c r, c.isNotification⟩, st', called⟩ := by
  refine ⟨_, _, _, carryOut_carried s authenticated c st, ?_⟩
  unfold exchange
  -- the service and its logged copy find the same call in the envelope
  rw [answerEnvelope_value_of_call s authenticated hcall,
    answerEnvelope_after_of_call s authenticated hcall,
    answerEnvelope_after_of_call s.logged authenticated hcall]

/-- What comes of an envelope that is no request. -/
theorem exchange_of_rejection {v : Json} {r : Rejection} (hreject : Call.ofJson v = .error r)
    (st : σ) :
    s.exchange authenticated v st
      = ⟨v, st, ⟨.failure r.version (s.errorBody r.fault) r.id, false⟩, st, []⟩ := by
  unfold exchange
  rw [answerEnvelope_value_of_rejection s authenticated hreject,
    answerEnvelope_after_of_rejection s authenticated hreject,
    answerEnvelope_after_of_rejection s.logged authenticated hreject]

/-- An exchange either changes nothing and calls no handler, or it is about a request and calls the
    handler of the method that the request names, once. -/
theorem exchange_quiet_or_called (v : Json) (st : σ) :
    ((s.exchange authenticated v st).after = st ∧ (s.exchange authenticated v st).invocations = [])
      ∨ ∃ c m, Call.ofJson v = .ok c ∧ s.table.find? c.method = some m
        ∧ (s.exchange authenticated v st).invocations
          = [m.invocation (m.context c authenticated) c.params st] := by
  cases hcall : Call.ofJson v with
  | error r =>
      rw [exchange_of_rejection s authenticated hcall]
      exact Or.inl ⟨rfl, rfl⟩
  | ok c =>
      obtain ⟨r, st', called, hcarried, hx⟩ := exchange_of_call s authenticated hcall st
      rw [hx]
      rcases hcarried.quiet_or_called s authenticated with hquiet | ⟨m, hfind, hcalled⟩
      · exact Or.inl hquiet
      · exact Or.inr ⟨c, m, rfl, hfind, hcalled⟩

/-! ## Exchanges in a row -/

/-- An exchange of a row is what comes of one of the envelopes in some state. -/
theorem exists_of_mem_exchanges {items : List Json} {st : σ} {x : Exchange σ}
    (hx : x ∈ s.exchanges authenticated items st) :
    ∃ v ∈ items, ∃ st', x = s.exchange authenticated v st' := by
  induction items generalizing st with
  | nil => exact nomatch hx
  | cons v rest ih =>
      rcases List.mem_cons.mp hx with rfl | hrest
      · exact ⟨v, List.mem_cons_self, st, rfl⟩
      · obtain ⟨w, hw, st', rfl⟩ := ih hrest
        exact ⟨w, List.mem_cons_of_mem v hw, st', rfl⟩

/-- What holds of every exchange in every state holds of the exchanges in a row. -/
theorem forall_exchanges {P : Exchange σ → Prop}
    (h : ∀ v st, P (s.exchange authenticated v st)) (items : List Json) (st : σ) :
    ∀ x ∈ s.exchanges authenticated items st, P x := by
  intro x hx
  obtain ⟨v, -, st', rfl⟩ := exists_of_mem_exchanges s authenticated hx
  exact h v st'

/-- There is one exchange for each envelope, in order. -/
theorem exchanges_envelope (items : List Json) (st : σ) :
    (s.exchanges authenticated items st).map Exchange.envelope = items := by
  induction items generalizing st with
  | nil => rfl
  | cons v rest ih =>
      show v :: (s.exchanges authenticated rest _).map Exchange.envelope = v :: rest
      rw [ih]

/-- The first exchange begins in the state that is given, and each of the others in the state that
    the one before left. -/
theorem exchanges_states (items : List Json) (st : σ) :
    (s.exchanges authenticated items st).map Exchange.before
        ++ [Exchange.last st (s.exchanges authenticated items st)]
      = st :: (s.exchanges authenticated items st).map Exchange.after := by
  induction items generalizing st with
  | nil => rfl
  | cons v rest ih => exact congrArg (st :: ·) (ih (s.exchange authenticated v st).after)

/-- Envelopes in a row are answered by the replies of their exchanges. -/
theorem answerAll_value (items : List Json) (st : σ) :
    (s.answerAll authenticated items).value st
      = (s.exchanges authenticated items st).map Exchange.reply := by
  induction items generalizing st with
  | nil => rfl
  | cons v rest ih =>
      unfold answerAll exchanges
      rw [Act.value_bind, Act.value_bind, Act.value_pure, ih]
      rfl

/-- Envelopes in a row leave the state of their last exchange. -/
theorem answerAll_after (items : List Json) (st : σ) :
    (s.answerAll authenticated items).after st
      = Exchange.last st (s.exchanges authenticated items st) := by
  induction items generalizing st with
  | nil => rfl
  | cons v rest ih =>
      unfold answerAll exchanges
      rw [Act.after_bind, Act.after_bind, Act.after_pure, ih]
      rfl

/-- Envelopes in a row make the calls of handlers that their exchanges make. -/
theorem logged_answerAll_after (items : List Json) (st : σ) :
    ((s.logged.answerAll authenticated items).after (st, [])).2
      = (s.exchanges authenticated items st).flatMap Exchange.invocations := by
  induction items generalizing st with
  | nil => rfl
  | cons v rest ih =>
      -- the logged copy goes on from the same bare state, behind a log that is not empty
      have hstate : ((s.logged.answerEnvelope v authenticated).after (st, [])).1
          = (s.exchange authenticated v st).after :=
        (logged_answerEnvelope_follows s authenticated v).after_eq st []
      unfold answerAll exchanges
      rw [Act.after_bind, Act.after_bind, Act.after_pure, List.flatMap_cons, ← ih, ← hstate]
      exact (logged_answerAll_follows s authenticated rest).log_eq _ _

/-! ## Bodies -/

/-- A body of which nothing can be made gets one reply. -/
theorem answer_of_undecodable {body : ByteArray} {u : Undecodable}
    (h : Body.decode body = .error u) (st : σ) :
    (s.answer body authenticated).value st
      = .single ⟨.failure (undecodableVersion u) (s.errorBody u.fault) .null, false⟩ := by
  unfold answer
  rw [h]
  rfl

/-- A body with one envelope gets the reply to that envelope. -/
theorem answer_of_single {body : ByteArray} {v : Json}
    (h : Body.decode body = .ok (.single v)) (st : σ) :
    (s.answer body authenticated).value st = .single (s.exchange authenticated v st).reply := by
  unfold answer
  rw [h]
  rfl

/-- A batch gets the replies to its envelopes. -/
theorem answer_of_batch {body : ByteArray} {items : List Json}
    (h : Body.decode body = .ok (.batch items)) (st : σ) :
    (s.answer body authenticated).value st
      = ⟨(s.exchanges authenticated items st).map Exchange.reply, true⟩ := by
  unfold answer
  rw [h, Act.value_inside]
  unfold answerBody
  rw [Act.value_bind, Act.value_bind, Act.value_bind, Act.value_pure, measure_after,
    Act.after_note, answerAll_value]

/-- The replies to a body are those of its exchanges. -/
theorem answer_replies {body : ByteArray} {b : Body} (h : Body.decode body = .ok b) (st : σ) :
    ((s.answer body authenticated).value st).replies
      = (s.exchangesOf authenticated body st).map Exchange.reply := by
  unfold exchangesOf
  cases b with
  | single v =>
      rw [answer_of_single s authenticated h, h]
      rfl
  | batch items =>
      rw [answer_of_batch s authenticated h, h]
      rfl

/-- The reply of an exchange of a body is one of the replies to it. -/
theorem reply_mem_of_mem_exchangesOf {body : ByteArray} {st : σ} {x : Exchange σ}
    (hx : x ∈ s.exchangesOf authenticated body st) :
    x.reply ∈ ((s.answer body authenticated).value st).replies := by
  cases hdecode : Body.decode body with
  | error u =>
      unfold exchangesOf at hx
      rw [hdecode] at hx
      exact nomatch hx
  | ok b =>
      rw [answer_replies s authenticated hdecode]
      exact List.mem_map_of_mem hx

/-- A reply to a body answers a body of which nothing can be made, or it is the reply of an
    exchange of the body. -/
theorem exists_of_mem_replies {body : ByteArray} {st : σ} {reply : Reply}
    (h : reply ∈ ((s.answer body authenticated).value st).replies) :
    (∃ u, reply = ⟨.failure (undecodableVersion u) (s.errorBody u.fault) .null, false⟩)
      ∨ ∃ x ∈ s.exchangesOf authenticated body st, x.reply = reply
          ∧ ∃ v st', x = s.exchange authenticated v st' := by
  cases hdecode : Body.decode body with
  | error u =>
      rw [answer_of_undecodable s authenticated hdecode] at h
      exact Or.inl ⟨u, List.mem_singleton.mp h⟩
  | ok b =>
      rw [answer_replies s authenticated hdecode] at h
      obtain ⟨x, hx, hreply⟩ := List.mem_map.mp h
      obtain ⟨v, -, st', hv⟩ := exists_of_mem_exchanges s authenticated hx
      exact Or.inr ⟨x, hx, hreply, v, st', hv⟩

/-- Whatever a body holds, answering it leaves what answering its envelopes in a row leaves. -/
theorem answer_after_eq_answerAll (body : ByteArray) (st : σ) :
    (s.answer body authenticated).after st
      = (s.answerAll authenticated (Body.envelopes (Body.decode body))).after st := by
  unfold answer
  rw [Act.after_inside]
  match Body.decode body with
  | .error u =>
      unfold answerBody
      rw [Act.after_bind, Act.after_bind, Act.after_pure, fail_after, Act.after_note]
      rfl
  | .ok (.single v) => rfl
  | .ok (.batch items) =>
      unfold answerBody
      rw [Act.after_bind, Act.after_bind, Act.after_bind, Act.after_pure, measure_after,
        Act.after_note]
      rfl

/-- A body leaves the state of its last exchange. -/
theorem answer_after (body : ByteArray) (st : σ) :
    (s.answer body authenticated).after st
      = Exchange.last st (s.exchangesOf authenticated body st) := by
  rw [answer_after_eq_answerAll, answerAll_after]
  rfl

/-- The calls of handlers that a body makes are those of its exchanges. -/
theorem invocations_eq (body : ByteArray) (st : σ) :
    s.invocations authenticated body st
      = (s.exchangesOf authenticated body st).flatMap Exchange.invocations := by
  unfold invocations
  rw [answer_after_eq_answerAll, logged_answerAll_after]
  rfl

/-- A body comes to some exchanges: they are about its envelopes, the replies to it are theirs, the
    first begins in the state that the body finds, each of the others in the state that the one
    before left, the body leaves the state of the last of them, and the calls of handlers that it
    makes are theirs in a row. A body of which nothing can be made comes to none and gets one reply
    of its own. -/
structure ComesTo (body : ByteArray) (st : σ) (xs : List (Exchange σ)) : Prop where
  envelopes : xs.map Exchange.envelope = Body.envelopes (Body.decode body)
  replies : ((s.answer body authenticated).value st).replies = match Body.decode body with
    | .error u => [⟨.failure (undecodableVersion u) (s.errorBody u.fault) .null, false⟩]
    | .ok _ => xs.map Exchange.reply
  states : xs.map Exchange.before ++ [(s.answer body authenticated).after st]
    = st :: xs.map Exchange.after
  invocations : s.invocations authenticated body st = xs.flatMap Exchange.invocations

/-- Every body comes to its exchanges. -/
theorem comesTo_exchangesOf (body : ByteArray) (st : σ) :
    s.ComesTo authenticated body st (s.exchangesOf authenticated body st) where
  envelopes := s.exchanges_envelope authenticated _ st
  replies := by
    cases hdecode : Body.decode body with
    | error u => exact congrArg Replies.replies (s.answer_of_undecodable authenticated hdecode st)
    | ok b => exact s.answer_replies authenticated hdecode st
  states := by
    rw [answer_after]
    exact s.exchanges_states authenticated _ st
  invocations := s.invocations_eq authenticated body st

end Service

end Switchboard
