import Switchboard.Proofs.Act
import Switchboard.Proofs.Groundwork
import Switchboard.Service

/-!
# Calls of handlers

Handlers are arbitrary functions, so which of them are called while a body is
answered cannot be read off states and replies. It is read off a LOGGED copy
of the service, whose handlers do what they did and also write each of their
calls into a list beside the application state. `logged_answer_follows` says
that keeping the list changes nothing else.

`Carried` lists once what can become of a call. Every statement about single
calls is a case analysis on it.
-/

namespace Switchboard

variable {σ : Type}

/-- One call of a handler: the method, what the handler was told and given, the state that it
    found, and how it ended. -/
structure Invocation (σ : Type) where
  method : Method σ
  context : Context
  params : Params
  before : σ
  outcome : Outcome

/-! ## Logged services -/

/-- The call of a method's handler in a state. -/
def Method.invocation (m : Method σ) (ctx : Context) (params : Params) (st : σ) :
    Invocation σ :=
  ⟨m, ctx, params, st, (m.handler ctx params st).1⟩

/-- The method that writes each call of its handler into a log. -/
def Method.logged (m : Method σ) : Method (σ × List (Invocation σ)) where
  signature := m.signature
  handler := fun ctx params s =>
    ((m.handler ctx params s.1).1,
      ((m.handler ctx params s.1).2, s.2 ++ [m.invocation ctx params s.1]))
  authenticated := m.authenticated
  safe := m.safe
  validate := m.validate
  parameterNames := m.parameterNames

theorem Method.logged_checkParams (m : Method σ) (params : Params) :
    m.logged.checkParams params = m.checkParams params := rfl

/-- What the end of a method's handler comes to once its result has been checked. -/
def Method.conclude (m : Method σ) (o : Outcome) : Except Fault Json := do
  let v ← o.settle
  m.checkResult v
  Except.ok v

/-- What the handler of a method is told about a call. -/
def Method.context (m : Method σ) (c : Call) (authenticated : Bool) : Context :=
  ⟨c.method, c.id?, c.version, authenticated, m.parameterNames⟩

/-! ## Checks around a handler -/

/-- Parameters that do not fit are the caller's fault. -/
theorem Method.invalidParams_of_checkParams {m : Method σ} {params : Params} {f : Fault}
    (h : m.checkParams params = .error f) : ∃ reason, f = .invalidParams reason := by
  unfold Method.checkParams at h
  split at h
  · split at h
    · exact nomatch h
    · exact ⟨_, (Except.error.inj h).symm⟩
  · exact nomatch h

/-- A handler that ends in a result has returned that result. -/
theorem Method.value_of_conclude {m : Method σ} {o : Outcome} {v : Json}
    (h : m.conclude o = .ok v) : o = .value v ∧ m.checkResult v = .ok () := by
  cases o with
  | value w =>
      change (m.checkResult w >>= fun _ => Except.ok w) = .ok v at h
      obtain ⟨_, hw, h⟩ := bind_eq_ok_iff.mp h
      obtain rfl : w = v := Except.ok.inj h
      exact ⟨rfl, hw⟩
  | fault f => exact nomatch h
  | panic text? => exact nomatch h

/-- A handler that ends in a fault has raised it as a fault about the call, or
    the fault is an internal error. -/
theorem Method.fault_of_conclude {m : Method σ} {o : Outcome} {f : Fault}
    (h : m.conclude o = .error f) :
    o = .fault f ∧ f.isProtocol = true ∨ ∃ detail, f = .internal detail := by
  cases o with
  | value w =>
      change (m.checkResult w >>= fun _ => Except.ok w) = .error f at h
      unfold Method.checkResult at h
      split at h
      · exact Or.inr ⟨_, (Except.error.inj h).symm⟩
      · exact nomatch h
  | fault g =>
      have hf : (if g.isProtocol then g else .internal g.message) = f := Except.error.inj h
      -- any other fault is wrapped, and the wrapping is an internal error
      by_cases hg : g.isProtocol = true
      · rw [if_pos hg] at hf
        exact Or.inl ⟨congrArg Outcome.fault hf, hf ▸ hg⟩
      · rw [if_neg hg] at hf
        exact Or.inr ⟨_, hf.symm⟩
  | panic text? => exact Or.inr ⟨_, (Except.error.inj h).symm⟩

namespace Service

/-- The service that writes each call of a handler into a log. -/
def logged (s : Service σ) : Service (σ × List (Invocation σ)) where
  table := ⟨s.table.methods.map Method.logged⟩
  policy := s.policy
  isMetered := s.isMetered

theorem logged_find? (s : Service σ) (name : String) :
    s.logged.table.find? name = (s.table.find? name).map Method.logged := by
  show (s.table.methods.map Method.logged).find? _ = _
  rw [List.find?_map]
  rfl

theorem logged_describe (s : Service σ) : s.logged.table.describe = s.table.describe := by
  show Json.arr ((s.table.methods.map Method.logged).map Method.describe) = _
  rw [List.map_map]
  rfl

/-- Calls that the handler of a method takes for the same are invoked alike. -/
theorem invoke_congr {m : Method σ} {c c' : Call} {authenticated : Bool}
    (h : m.handler (m.context c' authenticated) c'.params
      = m.handler (m.context c authenticated) c.params) :
    invoke m c' authenticated = invoke m c authenticated := by
  show (Act.ofStep (m.handler (m.context c' authenticated) c'.params) >>= _)
    = Act.ofStep (m.handler (m.context c authenticated) c.params) >>= _
  rw [h]

variable (s : Service σ) (authenticated : Bool)

/-! ## Calls -/

/-- What can become of a call: its result, the state after it, and the calls of handlers that it
    makes. It asks for the listing, names no method, is refused because of its caller or of its
    parameters, or its handler is called. -/
inductive Carried (c : Call) (st : σ) : Except Fault Json → σ → List (Invocation σ) → Prop where
  | listing (hnone : s.table.find? c.method = none) (hpolicy : s.policy.introspection = true)
      (hname : c.method = describeMethod) : Carried c st (.ok s.table.describe) st []
  | unknown (hnone : s.table.find? c.method = none)
      (hname : ¬(s.policy.introspection = true ∧ c.method = describeMethod)) :
      Carried c st (.error (.methodNotFound c.method)) st []
  | refused {m : Method σ} (hfind : s.table.find? c.method = some m)
      (hrequires : m.requiresAuthentication s.policy.requireAuthentication = true)
      (hcaller : authenticated = false) :
      Carried c st (.error (.unauthenticated c.method)) st []
  | misfit {m : Method σ} {f : Fault} (hfind : s.table.find? c.method = some m)
      (hcaller : m.requiresAuthentication s.policy.requireAuthentication = true →
        authenticated = true)
      (hparams : m.checkParams c.params = .error f) : Carried c st (.error f) st []
  | invoked {m : Method σ} (hfind : s.table.find? c.method = some m)
      (hcaller : m.requiresAuthentication s.policy.requireAuthentication = true →
        authenticated = true)
      (hparams : m.checkParams c.params = .ok ()) :
      Carried c st
        (m.conclude (m.handler (m.context c authenticated) c.params st).1)
        (m.handler (m.context c authenticated) c.params st).2
        [m.invocation (m.context c authenticated) c.params st]

/-- A call that names no method. -/
theorem carryOut_of_none {c : Call} (hfind : s.table.find? c.method = none) :
    s.carryOut c authenticated = Act.pure
      (if s.policy.introspection = true ∧ c.method = describeMethod then .ok s.table.describe
        else .error (.methodNotFound c.method)) := by
  unfold carryOut
  rw [hfind]
  simp only [Bool.and_eq_true, decide_eq_true_eq]

/-- A call of a method that is not for this caller. -/
theorem carryOut_of_refused {c : Call} {m : Method σ} (hfind : s.table.find? c.method = some m)
    (hrequires : m.requiresAuthentication s.policy.requireAuthentication = true) :
    s.carryOut c false = Act.pure (.error (.unauthenticated c.method)) := by
  unfold carryOut
  rw [hfind]
  dsimp only
  rw [hrequires]
  rfl

/-- A call of a method that is for this caller. -/
theorem carryOut_of_admitted {c : Call} {m : Method σ} (hfind : s.table.find? c.method = some m)
    (hcaller : m.requiresAuthentication s.policy.requireAuthentication = true →
      authenticated = true) :
    s.carryOut c authenticated = match m.checkParams c.params with
      | .error f => Act.pure (.error f)
      | .ok () => invoke m c authenticated := by
  unfold carryOut
  rw [hfind]
  dsimp only
  exact if_neg (by simpa using hcaller)

/-- A call ends without a handler, the same in a service and its logged copy, or
    in the handler of the method that it names. -/
theorem carryOut_cases (c : Call) :
    (∃ r, s.carryOut c authenticated = Act.pure r ∧ s.logged.carryOut c authenticated = Act.pure r
      ∧ ∀ st, Carried s authenticated c st r st [])
    ∨ ∃ m, s.carryOut c authenticated = invoke m c authenticated
      ∧ s.logged.carryOut c authenticated = invoke m.logged c authenticated
      ∧ ∀ st, Carried s authenticated c st
          (m.conclude (m.handler (m.context c authenticated) c.params st).1)
          (m.handler (m.context c authenticated) c.params st).2
          [m.invocation (m.context c authenticated) c.params st] := by
  cases hfind : s.table.find? c.method with
  | none =>
      refine Or.inl ⟨_, carryOut_of_none s authenticated hfind, ?_, ?_⟩
      · rw [carryOut_of_none s.logged authenticated (by rw [logged_find?, hfind]; rfl),
          logged_describe]
        rfl
      · intro st
        by_cases hname : s.policy.introspection = true ∧ c.method = describeMethod
        · rw [if_pos hname]
          exact .listing hfind hname.1 hname.2
        · rw [if_neg hname]
          exact .unknown hfind hname
  | some m =>
      have hfind' : s.logged.table.find? c.method = some m.logged := by
        rw [logged_find?, hfind]
        rfl
      -- the gate comes before the parameters, so the caller is settled first
      by_cases hcaller : m.requiresAuthentication s.policy.requireAuthentication = true →
          authenticated = true
      · rw [carryOut_of_admitted s authenticated hfind hcaller,
          carryOut_of_admitted s.logged authenticated hfind' hcaller, m.logged_checkParams]
        cases hparams : m.checkParams c.params with
        | error f => exact Or.inl ⟨_, rfl, rfl, fun _ => .misfit hfind hcaller hparams⟩
        | ok u => exact Or.inr ⟨m, rfl, rfl, fun _ => .invoked hfind hcaller hparams⟩
      · obtain ⟨hrequires, hanonymous⟩ := Classical.not_imp.mp hcaller
        obtain rfl : authenticated = false := eq_false_of_ne_true hanonymous
        exact Or.inl ⟨_, carryOut_of_refused s hfind hrequires,
          carryOut_of_refused s.logged hfind' hrequires,
          fun _ => .refused hfind hrequires rfl⟩

/-- Every call is carried out in one of the ways of `Carried`. -/
theorem carryOut_carried (c : Call) (st : σ) :
    Carried s authenticated c st ((s.carryOut c authenticated).value st)
      ((s.carryOut c authenticated).after st)
      ((s.logged.carryOut c authenticated).after (st, [])).2 := by
  rcases carryOut_cases s authenticated c with ⟨r, h, h', hr⟩ | ⟨m, h, h', hm⟩
  · rw [h, h']
    exact hr st
  · rw [h, h']
    exact hm st

/-- A call either changes nothing and calls no handler, or it calls the handler of the method that
    it names, once. -/
theorem Carried.quiet_or_called {c : Call} {st st' : σ} {r : Except Fault Json}
    {called : List (Invocation σ)} (h : Carried s authenticated c st r st' called) :
    (st' = st ∧ called = []) ∨ ∃ m, s.table.find? c.method = some m
      ∧ called = [m.invocation (m.context c authenticated) c.params st] := by
  cases h with
  | listing | unknown | refused | misfit => exact Or.inl ⟨rfl, rfl⟩
  | invoked hfind => exact Or.inr ⟨_, hfind, rfl⟩

/-- A call that names a registered method is turned away, misses the parameters of the method, or
    reaches its handler. -/
theorem Carried.of_found {c : Call} {st st' : σ} {r : Except Fault Json}
    {called : List (Invocation σ)} (h : Carried s authenticated c st r st' called) {m : Method σ}
    (hfind : s.table.find? c.method = some m) :
    (m.requiresAuthentication s.policy.requireAuthentication = true ∧ authenticated = false
        ∧ r = .error (.unauthenticated c.method) ∧ st' = st ∧ called = [])
      ∨ (m.requiresAuthentication s.policy.requireAuthentication = true → authenticated = true)
        ∧ ((∃ f, m.checkParams c.params = .error f ∧ r = .error f ∧ st' = st ∧ called = [])
          ∨ m.checkParams c.params = .ok ()
            ∧ r = m.conclude (m.handler (m.context c authenticated) c.params st).1
            ∧ st' = (m.handler (m.context c authenticated) c.params st).2
            ∧ called = [m.invocation (m.context c authenticated) c.params st]) := by
  cases h with
  | listing hnone => exact nomatch hfind.symm.trans hnone
  | unknown hnone => exact nomatch hfind.symm.trans hnone
  | refused hfind' hrequires hcaller =>
      obtain rfl := Option.some.inj (hfind.symm.trans hfind')
      exact Or.inl ⟨hrequires, hcaller, rfl, rfl, rfl⟩
  | misfit hfind' hcaller hparams =>
      obtain rfl := Option.some.inj (hfind.symm.trans hfind')
      exact Or.inr ⟨hcaller, Or.inl ⟨_, hparams, rfl, rfl, rfl⟩⟩
  | invoked hfind' hcaller hparams =>
      obtain rfl := Option.some.inj (hfind.symm.trans hfind')
      exact Or.inr ⟨hcaller, Or.inr ⟨hparams, rfl, rfl, rfl⟩⟩

/-! ## Keeping the log changes nothing -/

theorem logged_measure_follows (m : Measurement) :
    Act.Follows (s.logged.measure m) (s.measure m) := by
  unfold measure
  rw [show s.logged.isMetered = s.isMetered from rfl]
  cases s.isMetered with
  | true => exact Act.follows_write _
  | false => exact Act.follows_pure ()

theorem logged_fail_follows (version : Version) (f : Fault) (id : Id) :
    Act.Follows (s.logged.fail version f id) (s.fail version f id) :=
  (Act.follows_write _).bind fun _ =>
    (logged_measure_follows s _).bind fun _ => Act.follows_pure _

/-- A logged handler adds the one call that it is. -/
theorem logged_invoke_follows (m : Method σ) (c : Call) :
    Act.Follows (invoke m.logged c authenticated) (invoke m c authenticated) := by
  refine ⟨fun st => [m.invocation (m.context c authenticated) c.params st], ?_⟩
  intro st log
  -- the logged handler is defined to do just this, and the check of its result reads no state
  rfl

/-- A call that is logged is carried out as one that is not. -/
theorem logged_carryOut_follows (c : Call) :
    Act.Follows (s.logged.carryOut c authenticated) (s.carryOut c authenticated) := by
  rcases carryOut_cases s authenticated c with ⟨r, h, h', -⟩ | ⟨m, h, h', -⟩
  · rw [h, h']
    exact Act.follows_pure r
  · rw [h, h']
    exact logged_invoke_follows authenticated m c

theorem logged_answerCall_follows (c : Call) :
    Act.Follows (s.logged.answerCall c authenticated) (s.answerCall c authenticated) := by
  refine Act.Follows.inside _ ((logged_carryOut_follows s authenticated c).bind ?_)
  intro result
  refine (logged_measure_follows s _).bind ?_
  intro _
  cases result with
  | ok v => exact Act.follows_pure _
  | error f => exact logged_fail_follows s _ f _

/-- An envelope is answered in the same way with a log as without. -/
theorem logged_answerEnvelope_follows (v : Json) :
    Act.Follows (s.logged.answerEnvelope v authenticated)
      (s.answerEnvelope v authenticated) := by
  unfold answerEnvelope
  cases Call.ofJson v with
  | ok c =>
      exact (logged_answerCall_follows s authenticated c).bind fun _ => Act.follows_pure _
  | error r =>
      exact (Act.follows_write _).bind fun _ =>
        (logged_fail_follows s _ _ _).bind fun _ => Act.follows_pure _

theorem logged_answerAll_follows (items : List Json) :
    Act.Follows (s.logged.answerAll authenticated items) (s.answerAll authenticated items) := by
  induction items with
  | nil => exact Act.follows_pure _
  | cons v rest ih =>
      exact (logged_answerEnvelope_follows s authenticated v).bind fun _ =>
        ih.bind fun _ => Act.follows_pure _

theorem logged_answerBody_follows (b : Except Undecodable Body) :
    Act.Follows (s.logged.answerBody authenticated b) (s.answerBody authenticated b) := by
  match b with
  | .error u =>
      exact (Act.follows_write _).bind fun _ =>
        (logged_fail_follows s _ _ _).bind fun _ => Act.follows_pure _
  | .ok (.single v) =>
      exact (logged_answerEnvelope_follows s authenticated v).bind fun _ => Act.follows_pure _
  | .ok (.batch items) =>
      exact (Act.follows_write _).bind fun _ => (logged_measure_follows s _).bind fun _ =>
        (logged_answerAll_follows s authenticated items).bind fun _ => Act.follows_pure _

/-- Keeping a log of the calls of handlers changes no reply, no state of the
    application and nothing in the journal. -/
theorem logged_answer_follows (body : ByteArray) :
    Act.Follows (s.logged.answer body authenticated) (s.answer body authenticated) :=
  (logged_answerBody_follows s authenticated _).inside _

/-- The calls of handlers that are made while a body is answered, in order. -/
def invocations (body : ByteArray) (st : σ) : List (Invocation σ) :=
  ((s.logged.answer body authenticated).after (st, [])).2

/-! ## Responses -/

/-- The response to a call with this result. -/
def respond (c : Call) : Except Fault Json → Response
  | .ok v => .success c.version v c.responseId
  | .error f => .failure c.version (s.errorBody f) c.responseId

theorem fail_value (version : Version) (f : Fault) (id : Id) (st : σ) :
    (s.fail version f id).value st = .failure version (s.errorBody f) id := rfl

theorem measure_after (m : Measurement) (st : σ) : (s.measure m).after st = st := by
  unfold measure
  cases s.isMetered <;> rfl

theorem fail_after (version : Version) (f : Fault) (id : Id) (st : σ) :
    (s.fail version f id).after st = st := by
  unfold fail
  rw [Act.after_bind, Act.after_bind, Act.after_pure, measure_after, Act.after_note]

/-- A call is answered with what it ends in. -/
theorem answerCall_value (c : Call) (st : σ) :
    (s.answerCall c authenticated).value st
      = s.respond c ((s.carryOut c authenticated).value st) := by
  unfold answerCall
  rw [Act.value_inside, Act.value_bind, Act.value_bind]
  cases (s.carryOut c authenticated).value st with
  | ok v => rfl
  | error f => exact fail_value s _ f _ _

theorem answerCall_after (c : Call) (st : σ) :
    (s.answerCall c authenticated).after st = (s.carryOut c authenticated).after st := by
  unfold answerCall
  rw [Act.after_inside, Act.after_bind, Act.after_bind, measure_after]
  cases (s.carryOut c authenticated).value st with
  | ok v => rfl
  | error f => exact fail_after s _ f _ _

end Service

end Switchboard
