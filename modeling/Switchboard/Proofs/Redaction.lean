import Switchboard.Proofs.Tables
import Switchboard.Proofs.Validation

/-!
# What callers are not told

A handler can fail in ways that are not its callers' business: it panics, it
raises a fault that is not about the call, or it breaks the promise of its own
signature. A service that redacts such failures answers all of them with one
and the same error object.

The statement is about TWO RUNS. Two services whose handlers do the same
except where both fail internally (`Method.Alike`) cannot be told apart by
anything that is sent back. The reply to a call depends on a handler only
through `Method.conclude`, so it is enough that the conclusions of two such
ends are answered alike (`respond_conclude_alike`); from there the equality is
carried through calls, envelopes and bodies.
-/

namespace Switchboard

variable {σ : Type}

/-- An end of a handler that the service takes for a failure of its own. -/
inductive Method.FailsInternally (m : Method σ) : Outcome → Prop where
  | panic (text? : Option String) : FailsInternally m (.panic text?)
  | fault {f : Fault} (hfault : f.isProtocol = false) : FailsInternally m (.fault f)
  | misfit {v : Json} (hvalidate : m.validate = true)
      (hkind : m.signature.returns.admits v = false) : FailsInternally m (.value v)

/-- Two ends of a method's handler are the same, or both are internal failures. -/
def Method.SameEnd (m : Method σ) (o p : Outcome) : Prop :=
  o = p ∨ m.FailsInternally o ∧ m.FailsInternally p

/-- Two methods that declare the same, with handlers that keep no state and end alike in every
    call. -/
structure Method.Alike (m n : Method σ) : Prop where
  signature : n.signature = m.signature
  authenticated : n.authenticated = m.authenticated
  safe : n.safe = m.safe
  validate : n.validate = m.validate
  parameterNames : n.parameterNames = m.parameterNames
  handlers : ∃ f g, m.handler = Handler.stateless f ∧ n.handler = Handler.stateless g ∧
    ∀ ctx params, m.SameEnd (f ctx params) (g ctx params)

/-- Two registrations that ask for the same, with handlers that keep no state and end alike in
    every call of the method that is registered. -/
structure Registration.Alike (r q : Registration σ) : Prop where
  text : q.text = r.text
  terms : q.terms = r.terms
  handlers : ∃ f g, r.handler = Handler.stateless f ∧ q.handler = Handler.stateless g ∧
    ∀ m, r.Adds m → ∀ ctx params, m.SameEnd (f ctx params) (g ctx params)

/-! ## Tables of registrations that are alike -/

/-- Registrations that are alike fail together or add methods that are alike. -/
theorem Registration.Alike.adds {r q : Registration σ} (h : r.Alike q) :
    r.method? = none ∧ q.method? = none ∨
      ∃ m n, r.method? = some m ∧ q.method? = some n ∧ m.Alike n := by
  have hsame : Signature.parse q.text q.terms.parameterNames
      = Signature.parse r.text r.terms.parameterNames := by rw [h.text, h.terms]
  cases hr : r.method? with
  | none =>
      refine Or.inl ⟨rfl, Option.eq_none_iff_forall_ne_some.mpr ?_⟩
      intro n hn
      obtain ⟨sig, hsig, -⟩ := Registration.method?_eq_some_iff.mp hn
      exact nomatch hr.symm.trans
        (Registration.method?_eq_some_iff.mpr ⟨sig, hsame.symm.trans hsig, rfl⟩)
  | some m =>
      obtain ⟨sig, hsig, rfl⟩ := Registration.method?_eq_some_iff.mp hr
      obtain ⟨f, g, hf, hg, hends⟩ := h.handlers
      refine Or.inr ⟨_, Method.make sig q.handler q.terms, rfl,
        Registration.method?_eq_some_iff.mpr ⟨sig, hsame.trans hsig, rfl⟩, ?_⟩
      constructor
      · rfl
      · exact congrArg MethodTerms.authenticated h.terms
      · exact congrArg MethodTerms.safe h.terms
      · exact congrArg MethodTerms.validate h.terms
      · simp only [Method.make, h.terms]
      · exact ⟨f, g, hf, hg, hends _ (Registration.adds_iff.mpr hr)⟩

namespace MethodTable

/-- Two tables hold methods that are alike, in the same order. -/
def Alike (t u : MethodTable σ) : Prop := List.Forall₂ Method.Alike t.methods u.methods

theorem Alike.insert {t u : MethodTable σ} (h : t.Alike u) {m n : Method σ} (hmn : m.Alike n) :
    (t.insert m).Alike (u.insert n) := by
  have hname {p q : Method σ} (hpq : p.Alike q) : q.name = p.name :=
    congrArg Signature.name hpq.signature
  obtain ⟨l⟩ := t
  obtain ⟨k⟩ := u
  change List.Forall₂ _ l k at h
  show List.Forall₂ _ (insertMethod m l) (insertMethod n k)
  induction h with
  | nil => exact List.Forall₂.cons hmn .nil
  | cons hpq hrest ih =>
      simp only [insertMethod, hname hpq, hname hmn]
      split_ifs
      · exact .cons hmn (.cons hpq hrest)
      · exact .cons hmn hrest
      · exact .cons hpq ih

/-- Registrations that are alike make tables that are alike. -/
theorem alike_ofRegistrations {rs qs : List (Registration σ)}
    (h : List.Forall₂ Registration.Alike rs qs) :
    (ofRegistrations rs).Alike (ofRegistrations qs) := by
  -- the tables so far are carried along, since registrations are made from the front
  suffices hfold : ∀ t u : MethodTable σ, t.Alike u →
      (rs.foldl registered t).Alike (qs.foldl registered u) from hfold ∅ ∅ .nil
  induction h with
  | nil =>
      intro t u htu
      exact htu
  | @cons r q rs qs hrq _ ih =>
      intro t u htu
      refine ih (t.registered r) (u.registered q) ?_
      rcases hrq.adds with ⟨hr, hq⟩ | ⟨m, n, hr, hq, hmn⟩
      · rwa [registered_of_none hr, registered_of_none hq]
      · rw [registered_of_some hr, registered_of_some hq]
        exact htu.insert hmn

/-- A name stands for methods that are alike, or for none in both tables. -/
theorem Alike.find? {t u : MethodTable σ} (h : t.Alike u) (name : String) :
    t.find? name = none ∧ u.find? name = none ∨
      ∃ m n, t.find? name = some m ∧ u.find? name = some n ∧ m.Alike n := by
  obtain ⟨l⟩ := t
  obtain ⟨k⟩ := u
  change List.Forall₂ _ l k at h
  show l.find? _ = none ∧ k.find? _ = none ∨ ∃ m n, l.find? _ = some m ∧ k.find? _ = some n ∧ _
  induction h with
  | nil => exact Or.inl ⟨rfl, rfl⟩
  | @cons m n l k hmn _ ih =>
      have hname : n.name = m.name := congrArg Signature.name hmn.signature
      by_cases hm : m.name = name
      · refine Or.inr ⟨m, n, ?_, ?_, hmn⟩
        · simp [hm]
        · simp [hname, hm]
      · simpa [hname, hm] using ih

/-- Tables that are alike are listed alike. -/
theorem Alike.describe {t u : MethodTable σ} (h : t.Alike u) : u.describe = t.describe := by
  obtain ⟨l⟩ := t
  obtain ⟨k⟩ := u
  change List.Forall₂ _ l k at h
  refine congrArg Json.arr ?_
  show k.map Method.describe = l.map Method.describe
  induction h with
  | nil => rfl
  | @cons m n l k hmn _ ih =>
      have hdescribe : n.describe = m.describe := by
        rw [Method.describe_eq, Method.describe_eq, Method.name, Method.name, hmn.signature,
          hmn.authenticated, hmn.safe, hmn.validate]
      rw [List.map_cons, List.map_cons, hdescribe, ih]

end MethodTable

/-! ## Internal failures -/

/-- What is left of an internal failure when its data are held back. -/
def ErrorBody.internal : ErrorBody := ⟨-32603, "Internal error", none⟩

/-- However a handler fails internally, the call ends in an internal error. -/
theorem Method.FailsInternally.conclude {m : Method σ} {o : Outcome} (h : m.FailsInternally o) :
    ∃ detail, m.conclude o = .error (.internal detail) := by
  cases h with
  | panic text? => exact ⟨_, rfl⟩
  | fault hfault =>
      rename_i f
      refine ⟨f.message, ?_⟩
      show Except.error (if f.isProtocol then f else .internal f.message) = _
      rw [hfault]
      rfl
  | misfit hvalidate hkind => exact Method.conclude_of_misfit hvalidate hkind

namespace Service

variable {s : Service σ} {authenticated : Bool}

/-- Internal failures are all answered alike. -/
theorem respond_of_failsInternally (hredact : s.policy.redactInternal = true) (c : Call)
    {m : Method σ} {o : Outcome} (h : m.FailsInternally o) :
    s.respond c (m.conclude o) = .failure c.version .internal c.responseId := by
  obtain ⟨detail, hconclude⟩ := h.conclude
  rw [hconclude]
  show Response.failure c.version (s.errorBody (.internal detail)) c.responseId = _
  have hbody : s.errorBody (.internal detail) = .internal := by
    simp only [errorBody, hredact]
    rfl
  rw [hbody]

/-- A call in which the handler fails internally. -/
theorem exchange_of_failsInternally (hredact : s.policy.redactInternal = true) (v : Json)
    (st : σ) : ∀ i ∈ (s.exchange authenticated v st).invocations,
      i.method.FailsInternally i.outcome → ∃ c, Call.ofJson v = .ok c ∧
        (s.exchange authenticated v st).reply
          = ⟨.failure c.version .internal c.responseId, c.isNotification⟩ := by
  intro i hi hfails
  cases hcall : Call.ofJson v with
  | error r =>
      rw [s.exchange_of_rejection authenticated hcall] at hi
      exact nomatch hi
  | ok c =>
      obtain ⟨r, st', called, hcarried, hx⟩ := s.exchange_of_call authenticated hcall st
      rw [hx] at hi ⊢
      refine ⟨c, rfl, ?_⟩
      cases hcarried with
      -- only a call that reaches its handler makes one fail
      | invoked hfind hcaller hparams =>
          obtain rfl := List.mem_singleton.mp hi
          exact congrArg (Reply.mk · c.isNotification) (respond_of_failsInternally hredact c hfails)
      | listing => exact nomatch hi
      | unknown => exact nomatch hi
      | refused => exact nomatch hi
      | misfit => exact nomatch hi

/-! ## Two runs -/

section TwoRuns

variable {s' : Service σ} (hpolicy : s'.policy = s.policy)
include hpolicy

/-- How a fault is answered depends on the policy alone. -/
theorem errorBody_of_policy (f : Fault) : s'.errorBody f = s.errorBody f := by
  simp only [errorBody, hpolicy]

/-- Nothing but the rules has a part in how a result is put into a response. -/
theorem respond_of_policy (c : Call) (r : Except Fault Json) : s'.respond c r = s.respond c r := by
  cases r with
  | ok v => rfl
  | error f =>
      show Response.failure c.version (s'.errorBody f) c.responseId = _
      rw [errorBody_of_policy hpolicy]
      rfl

variable (hredact : s.policy.redactInternal = true)
include hredact

/-- Two ends that are the same or both internal failures are answered alike. -/
theorem respond_conclude_alike (c : Call) {m n : Method σ} (hmn : m.Alike n) {o p : Outcome}
    (hends : m.SameEnd o p) : s'.respond c (n.conclude p) = s.respond c (m.conclude o) := by
  have hcheck : n.conclude p = m.conclude p := by
    have hresult (v : Json) : n.checkResult v = m.checkResult v := by
      simp only [Method.checkResult, Method.name, hmn.signature, hmn.validate]
    simp only [Method.conclude, hresult]
  rw [respond_of_policy hpolicy, hcheck]
  rcases hends with rfl | ⟨ho, hp⟩
  · rfl
  · rw [respond_of_failsInternally hredact c ho, respond_of_failsInternally hredact c hp]

variable (htable : s.table.Alike s'.table)
include htable

/-- A call is answered alike by both services, in whatever states they are. -/
theorem carryOut_alike (authenticated : Bool) (c : Call) (st st' : σ) :
    s'.respond c ((s'.carryOut c authenticated).value st')
      = s.respond c ((s.carryOut c authenticated).value st) := by
  rcases htable.find? c.method with ⟨hnone, hnone'⟩ | ⟨m, n, hfind, hfind', hmn⟩
  · rw [s.carryOut_of_none authenticated hnone, s'.carryOut_of_none authenticated hnone', hpolicy,
      htable.describe, respond_of_policy hpolicy]
    rfl
  · have hrequires (everywhere : Bool) :
        n.requiresAuthentication everywhere = m.requiresAuthentication everywhere := by
      simp only [Method.requiresAuthentication, hmn.safe, hmn.authenticated]
    by_cases hcaller : m.requiresAuthentication s.policy.requireAuthentication = true →
        authenticated = true
    · have hcaller' : n.requiresAuthentication s'.policy.requireAuthentication = true →
          authenticated = true := by rwa [hrequires, hpolicy]
      have hparams : n.checkParams c.params = m.checkParams c.params := by
        simp only [Method.checkParams, Method.name, hmn.signature, hmn.validate]
      rw [s.carryOut_of_admitted authenticated hfind hcaller,
        s'.carryOut_of_admitted authenticated hfind' hcaller', hparams]
      cases m.checkParams c.params with
      | error f => exact respond_of_policy hpolicy c _
      | ok u =>
          -- the handlers are told the same, and neither looks at its state
          obtain ⟨f, g, hf, hg, hends⟩ := hmn.handlers
          show s'.respond c (n.conclude (n.handler (n.context c authenticated) c.params st').1)
            = s.respond c (m.conclude (m.handler (m.context c authenticated) c.params st).1)
          rw [hf, hg, Method.context, Method.context, hmn.parameterNames]
          exact respond_conclude_alike hpolicy hredact c hmn (hends _ _)
    · obtain ⟨hm, hanonymous⟩ := Classical.not_imp.mp hcaller
      obtain rfl : authenticated = false := eq_false_of_ne_true hanonymous
      rw [s.carryOut_of_refused hfind hm,
        s'.carryOut_of_refused hfind' (by rwa [hrequires, hpolicy])]
      exact respond_of_policy hpolicy c _

/-- An envelope gets the same reply from both services. -/
theorem answerEnvelope_alike (authenticated : Bool) (v : Json) (st st' : σ) :
    (s'.answerEnvelope v authenticated).value st'
      = (s.answerEnvelope v authenticated).value st := by
  cases hcall : Call.ofJson v with
  | ok c =>
      rw [s.answerEnvelope_value_of_call authenticated hcall,
        s'.answerEnvelope_value_of_call authenticated hcall,
        carryOut_alike hpolicy hredact htable authenticated c st st']
  | error r =>
      rw [s.answerEnvelope_value_of_rejection authenticated hcall,
        s'.answerEnvelope_value_of_rejection authenticated hcall, errorBody_of_policy hpolicy]

/-- So do envelopes in a row, although the states in between may differ. -/
theorem exchanges_alike (authenticated : Bool) (items : List Json) (st st' : σ) :
    (s'.exchanges authenticated items st').map Exchange.reply
      = (s.exchanges authenticated items st).map Exchange.reply := by
  induction items generalizing st st' with
  | nil => rfl
  | cons v rest ih =>
      simp only [exchanges, List.map_cons]
      exact congrArg₂ List.cons (answerEnvelope_alike hpolicy hredact htable authenticated v st st')
        (ih _ _)

/-- So do bodies. -/
theorem answer_alike (authenticated : Bool) (body : ByteArray) (st st' : σ) :
    (s'.answer body authenticated).value st' = (s.answer body authenticated).value st := by
  cases hdecode : Body.decode body with
  | error u =>
      rw [s.answer_of_undecodable authenticated hdecode,
        s'.answer_of_undecodable authenticated hdecode, errorBody_of_policy hpolicy]
  | ok b =>
      cases b with
      | single v =>
          rw [s.answer_of_single authenticated hdecode, s'.answer_of_single authenticated hdecode]
          exact congrArg Replies.single
            (answerEnvelope_alike hpolicy hredact htable authenticated v st st')
      | batch items =>
          rw [s.answer_of_batch authenticated hdecode, s'.answer_of_batch authenticated hdecode,
            exchanges_alike hpolicy hredact htable authenticated items st st']

end TwoRuns

/-- Redaction hides internal failures. Take two services under one policy that redacts, set up by
    the same registrations except that where a handler of the one fails internally, the handler of
    the other may fail internally in another way. Whatever the body and whoever sends it, both give
    the same replies, and so the same text with all of them and the same text with those that are
    wanted. And a call in which a handler fails internally is answered with the bare internal error,
    which has no data. -/
theorem redaction_hides_failures {rs rs' : List (Registration σ)}
    (hregistrations : List.Forall₂ Registration.Alike rs rs') {s' : Service σ}
    (hs : s.table = .ofRegistrations rs) (hs' : s'.table = .ofRegistrations rs')
    (hpolicy : s'.policy = s.policy) (hredact : s.policy.redactInternal = true)
    (authenticated : Bool) (body : ByteArray) (st st' : σ) :
    (s'.answerText body authenticated).value st' = (s.answerText body authenticated).value st
      ∧ (s'.answer body authenticated).value st' = (s.answer body authenticated).value st
      ∧ ∃ xs, s.ComesTo authenticated body st xs ∧ ∀ x ∈ xs, ∀ i ∈ x.invocations,
          i.method.FailsInternally i.outcome → ∃ c, Call.ofJson x.envelope = .ok c ∧
            x.reply = ⟨.failure c.version ⟨-32603, "Internal error", none⟩ c.responseId,
              c.isNotification⟩ := by
  have htable : s.table.Alike s'.table := by
    rw [hs, hs']
    exact MethodTable.alike_ofRegistrations hregistrations
  have hsame := answer_alike hpolicy hredact htable authenticated body st st'
  refine ⟨?_, hsame, _, s.comesTo_exchangesOf authenticated body st, ?_⟩
  · exact congrArg Replies.body hsame
  · exact s.forall_exchanges authenticated (exchange_of_failsInternally hredact) _ st

end Service

/-- A method that panics with a text, one that breaks its promise of a number, and one that keeps
    its word. -/
def frankRegistrations : List (Registration Nat) :=
  [⟨"boom", .stateless fun _ _ => .panic (some "no room on /dev/sda1"), {}⟩,
    ⟨"sum(n=Number) -> Number", .stateless fun _ _ => .value (.str "three"), { validate := true }⟩,
    ⟨"ping", .stateless fun _ _ => .value (.str "pong"), {}⟩]

/-- The same methods, of which the first two fail in other ways. -/
def coyRegistrations : List (Registration Nat) :=
  [⟨"boom", .stateless fun _ _ => .fault (.transport "no route"), {}⟩,
    ⟨"sum(n=Number) -> Number", .stateless fun _ _ => .panic none, { validate := true }⟩,
    ⟨"ping", .stateless fun _ _ => .value (.str "pong"), {}⟩]

/-- A service with some registrations that redacts internal failures. -/
def discreetService (rs : List (Registration Nat)) : Service Nat where
  table := .ofRegistrations rs
  policy := { redactInternal := true }

/-- A call of each of the methods. -/
def probeBatch : ByteArray :=
  ("[\x7b\"id\":1,\"method\":\"boom\"\x7d,\x7b\"id\":2,\"method\":\"sum\",\"params\":[1]\x7d," ++
    "\x7b\"id\":3,\"method\":\"ping\"\x7d]").toUTF8

/-- Nobody can tell one from the other, whatever their states are. -/
theorem frank_answers_as_coy :
    List.Forall₂ Registration.Alike frankRegistrations coyRegistrations
      ∧ ((discreetService coyRegistrations).answerText probeBatch true).value 8
        = ((discreetService frankRegistrations).answerText probeBatch true).value 3
      ∧ ((discreetService coyRegistrations).answerText probeBatch true).value 8
        = "[\x7b\"error\":\x7b\"code\":-32603,\"message\":\"Internal error\"\x7d,\"id\":1\x7d," ++
          "\x7b\"error\":\x7b\"code\":-32603,\"message\":\"Internal error\"\x7d,\"id\":2\x7d," ++
          "\x7b\"result\":\"pong\",\"id\":3\x7d]" := by
  have hboom : Registration.Alike (σ := Nat)
      ⟨"boom", .stateless fun _ _ => .panic (some "no room on /dev/sda1"), {}⟩
      ⟨"boom", .stateless fun _ _ => .fault (.transport "no route"), {}⟩ := by
    refine ⟨rfl, rfl, _, _, rfl, rfl, ?_⟩
    intro m _ ctx params
    exact Or.inr ⟨.panic _, .fault rfl⟩
  have hsum : Registration.Alike (σ := Nat)
      ⟨"sum(n=Number) -> Number", .stateless fun _ _ => .value (.str "three"),
        { validate := true }⟩
      ⟨"sum(n=Number) -> Number", .stateless fun _ _ => .panic none, { validate := true }⟩ := by
    refine ⟨rfl, rfl, _, _, rfl, rfl, ?_⟩
    intro m hm ctx params
    have hsig : m.signature = ⟨"sum", some [⟨"n", .number⟩], .number⟩ :=
      (Except.ok.inj hm.signature).symm
    refine Or.inr ⟨.misfit hm.validate ?_, .panic none⟩
    rw [hsig]
    rfl
  have hping : Registration.Alike (σ := Nat)
      ⟨"ping", .stateless fun _ _ => .value (.str "pong"), {}⟩
      ⟨"ping", .stateless fun _ _ => .value (.str "pong"), {}⟩ := by
    refine ⟨rfl, rfl, _, _, rfl, rfl, ?_⟩
    intro m _ ctx params
    exact Or.inl rfl
  have hregistrations : List.Forall₂ Registration.Alike frankRegistrations coyRegistrations :=
    .cons hboom (.cons hsum (.cons hping .nil))
  have hfrank : (discreetService frankRegistrations).table = .ofRegistrations frankRegistrations :=
    rfl
  have hcoy : (discreetService coyRegistrations).table = .ofRegistrations coyRegistrations := rfl
  obtain ⟨htext, -, -⟩ := Service.redaction_hides_failures hregistrations hfrank hcoy rfl rfl true
    probeBatch 3 8
  exact ⟨hregistrations, htext, by decide +kernel⟩

end Switchboard
