import Switchboard.Proofs.Authentication
import Switchboard.Proofs.Envelopes
import Switchboard.Proofs.Registration

/-!
# Calls that are checked

A method that was registered to be checked stands between two checks. Its
handler is given the parameters of the request, and only if they fit the
signature; what it returns becomes the result, and only if it is of the
declared kind. A method that was not is given whatever the request holds, and
whatever it returns is the result.

`Signature.Fits` says what it is for parameters to fit, without the order in
which the checks go through them or the words in which they complain;
`Method.checkParams_eq_ok_iff` ties the two together. `Exchange.Checked` puts
together what holds of a call of a registered method, from its parameters to
its reply, and `validation_sound` says that every call of every body is so.
-/

namespace Switchboard

variable {σ : Type}

/-! ## Parameters that fit -/

/-- Parameters fit a signature: it declares none, or they are as many as it declares and each is of
    the kind of its position, or there is one of its kind under each name that it declares. -/
inductive Signature.Fits (sig : Signature) : Params → Prop where
  | wildcard {params : Params} (hdeclared : sig.parameters? = none) : Fits sig params
  | positional {declared : List Parameter} {items : List Json}
      (hdeclared : sig.parameters? = some declared)
      (hitems : List.Forall₂ (fun p v => p.kind.admits v = true) declared items) :
      Fits sig (.positional items)
  | named {declared : List Parameter} {members : Members}
      (hdeclared : sig.parameters? = some declared)
      (hmembers : ∀ p ∈ declared, ∃ v, members.lookup p.name = some v ∧ p.kind.admits v = true) :
      Fits sig (.named members)

/-- Values in a row fit exactly if there is one of the right kind for each parameter. -/
theorem Signature.fits_positional_iff {sig : Signature} {declared : List Parameter}
    (hdeclared : sig.parameters? = some declared) {items : List Json} :
    sig.Fits (.positional items)
      ↔ List.Forall₂ (fun p v => p.kind.admits v = true) declared items := by
  constructor
  · rintro (hnone | ⟨hsame, hitems⟩)
    · exact nomatch hnone.symm.trans hdeclared
    · obtain rfl := Option.some.inj (hsame.symm.trans hdeclared)
      exact hitems
  · intro hitems
    exact .positional hdeclared hitems

/-- Values by name fit exactly if each parameter has one of the right kind under its name. -/
theorem Signature.fits_named_iff {sig : Signature} {declared : List Parameter}
    (hdeclared : sig.parameters? = some declared) {members : Members} :
    sig.Fits (.named members)
      ↔ ∀ p ∈ declared, ∃ v, members.lookup p.name = some v ∧ p.kind.admits v = true := by
  constructor
  · rintro (hnone | _ | ⟨hsame, hmembers⟩)
    · exact nomatch hnone.symm.trans hdeclared
    · obtain rfl := Option.some.inj (hsame.symm.trans hdeclared)
      exact hmembers
  · intro hmembers
    exact .named hdeclared hmembers

/-- Nothing is found wrong exactly if every value is of the right kind. -/
theorem positionalViolation?_eq_none_iff {declared : List Parameter} {items : List Json}
    (hlength : items.length = declared.length) (position : ℕ) :
    positionalViolation? position declared items = none
      ↔ List.Forall₂ (fun p v => p.kind.admits v = true) declared items := by
  induction declared generalizing items position with
  | nil =>
      obtain rfl := List.length_eq_zero_iff.mp hlength
      exact ⟨fun _ => .nil, fun _ => rfl⟩
  | cons p ps ih =>
      obtain ⟨v, vs, rfl⟩ := List.exists_cons_of_length_eq_add_one hlength
      rw [List.forall₂_cons, positionalViolation?, ← ih (Nat.succ.inj hlength) (position + 1)]
      by_cases hv : p.kind.admits v = true
      · rw [if_pos hv]
        exact ⟨fun h => ⟨hv, h⟩, And.right⟩
      · rw [if_neg hv]
        exact ⟨nofun, fun h => absurd h.1 hv⟩

theorem namedViolation?_eq_none_iff {members : Members} {declared : List Parameter} :
    namedViolation? members declared = none
      ↔ ∀ p ∈ declared, ∃ v, members.lookup p.name = some v ∧ p.kind.admits v = true := by
  induction declared with
  | nil => exact ⟨fun _ => nofun, fun _ => rfl⟩
  | cons p ps ih =>
      rw [List.forall_mem_cons, namedViolation?, ← ih]
      cases members.lookup p.name with
      | none => simp
      | some v =>
          dsimp only
          by_cases hv : p.kind.admits v = true
          · rw [if_pos hv]
            exact ⟨fun h => ⟨⟨v, rfl, hv⟩, h⟩, And.right⟩
          · rw [if_neg hv]
            constructor
            · intro h
              exact absurd h (Option.some_ne_none _)
            · rintro ⟨⟨w, ⟨⟩, hw⟩, -⟩
              exact absurd hw hv

/-- Nothing is wrong with parameters exactly if they fit. -/
theorem violation?_eq_none_iff {sig : Signature} {declared : List Parameter}
    (hdeclared : sig.parameters? = some declared) (params : Params) :
    violation? declared params = none ↔ sig.Fits params := by
  cases params with
  | positional items =>
      rw [Signature.fits_positional_iff hdeclared]
      show (if items.length ≠ declared.length then some (.count declared.length items.length)
        else positionalViolation? 0 declared items) = none ↔ _
      by_cases hlength : items.length = declared.length
      · rw [if_neg (not_not.mpr hlength)]
        exact positionalViolation?_eq_none_iff hlength 0
      · rw [if_pos hlength]
        exact ⟨nofun, fun h => absurd h.length_eq.symm hlength⟩
  | named members =>
      rw [Signature.fits_named_iff hdeclared]
      exact namedViolation?_eq_none_iff

namespace Method

variable {m : Method σ}

/-- The first check passes exactly if the method is not checked or the parameters fit. -/
theorem checkParams_eq_ok_iff {params : Params} :
    m.checkParams params = .ok () ↔ (m.validate = true → m.signature.Fits params) := by
  unfold checkParams
  cases m.validate with
  | false => simp
  | true =>
      unfold Signature.isWildcard Signature.parameters
      cases hdeclared : m.signature.parameters? with
      | none => simpa using Signature.Fits.wildcard hdeclared
      | some declared =>
          rw [if_pos (show (true && !(some declared).isNone) = true from rfl), Option.getD_some,
            ← violation?_eq_none_iff hdeclared params]
          cases violation? declared params <;> simp

/-- The second check passes exactly if the method is not checked or the value is of the declared
    kind. -/
theorem checkResult_eq_ok_iff {v : Json} :
    m.checkResult v = .ok () ↔ (m.validate = true → m.signature.returns.admits v = true) := by
  unfold checkResult
  cases m.validate with
  | false => exact ⟨fun _ => nofun, fun _ => rfl⟩
  | true =>
      cases m.signature.returns.admits v with
      | true => exact ⟨fun _ _ => rfl, fun _ => rfl⟩
      | false => exact ⟨nofun, fun h => nomatch h rfl⟩

/-- A value that passes the second check is what the call ends in. -/
theorem conclude_of_fit {v : Json}
    (h : m.validate = true → m.signature.returns.admits v = true) :
    m.conclude (.value v) = .ok v := by
  show (m.checkResult v >>= fun _ => Except.ok v) = .ok v
  rw [checkResult_eq_ok_iff.mpr h]
  rfl

/-- A value that does not makes the call end in an internal error. -/
theorem conclude_of_misfit {v : Json} (hvalidate : m.validate = true)
    (h : m.signature.returns.admits v = false) :
    ∃ detail, m.conclude (.value v) = .error (.internal detail) := by
  cases hconclude : m.conclude (.value v) with
  | ok w =>
      obtain ⟨⟨⟩, hcheck⟩ := Method.value_of_conclude hconclude
      exact nomatch h.symm.trans (checkResult_eq_ok_iff.mp hcheck hvalidate)
  | error f =>
      rcases Method.fault_of_conclude hconclude with ⟨hfault, -⟩ | ⟨detail, rfl⟩
      · exact nomatch hfault
      · exact ⟨detail, rfl⟩

end Method

/-! ## Calls of registered methods -/

/-- The caller may call the method. -/
def Service.Admits (s : Service σ) (authenticated : Bool) (m : Method σ) : Prop :=
  authenticated = true ∨ ¬ s.Guards m

/-- An error of a code and no result. -/
def Reply.FailsWith (r : Reply) (code : Int) : Prop :=
  r.response.result? = none ∧ r.response.code? = some code

/-- What holds of an exchange that calls a registered method. Only the handler of this method is
    called, with the parameters of the request, and for a checked method they fit (`invoked`). A
    caller who may call a checked method with parameters that do not fit is told so, and nothing
    happens (`misfit`); otherwise the handler is called once, in the state that the exchange begins
    in, and leaves the state that it ends in (`reached`). A result is a value that the handler
    returned, for a checked method of the declared kind (`result`), and a value that it returned is
    the result, unless the method is checked and the value of another kind, which is an internal
    error (`returned`). -/
structure Exchange.Checked (x : Exchange σ) (s : Service σ) (authenticated : Bool) (c : Call)
    (m : Method σ) : Prop where
  invoked : ∀ i ∈ x.invocations, i.method = m ∧ i.params = c.params
    ∧ (m.validate = true → m.signature.Fits i.params)
  misfit : s.Admits authenticated m → m.validate = true → ¬ m.signature.Fits c.params →
    x.reply.FailsWith (-32602) ∧ x.after = x.before ∧ x.invocations = []
  reached : s.Admits authenticated m → (m.validate = true → m.signature.Fits c.params) →
    x.invocations = [m.invocation (m.context c authenticated) c.params x.before]
      ∧ x.after = (m.handler (m.context c authenticated) c.params x.before).2
  result : ∀ v, x.reply.response.result? = some v →
    (∃ i ∈ x.invocations, i.outcome = .value v)
      ∧ (m.validate = true → m.signature.returns.admits v = true)
  returned : ∀ i ∈ x.invocations, ∀ v, i.outcome = .value v →
    if m.validate = true ∧ m.signature.returns.admits v = false then x.reply.FailsWith (-32603)
    else x.reply.response.result? = some v ∧ x.reply.response.error? = none

namespace Service

variable (s : Service σ) {authenticated : Bool}

/-- The caller is let in exactly if the method does not require a known one, or the caller is
    known. -/
theorem admits_iff {m : Method σ} : s.Admits authenticated m ↔
    (m.requiresAuthentication s.policy.requireAuthentication = true → authenticated = true) := by
  unfold Admits
  rw [guards_iff]
  exact or_comm.trans (imp_iff_not_or).symm

/-- The reply to a fault. -/
theorem failsWith_of_fault (c : Call) (f : Fault) :
    (Reply.mk (s.respond c (.error f)) c.isNotification).FailsWith f.toErrorBody.code :=
  ⟨rfl, s.failure_code? c.version f c.responseId⟩

variable {c : Call} {m : Method σ} {st : σ}

/-- A call that is turned away. -/
theorem checked_of_refused {envelope : Json} (hnot : ¬ s.Admits authenticated m) :
    Exchange.Checked ⟨envelope, st,
      ⟨s.respond c (.error (.unauthenticated c.method)), c.isNotification⟩, st, []⟩
      s authenticated c m where
  invoked := by
    intro i hi
    exact nomatch hi
  misfit h := absurd h hnot
  reached h := absurd h hnot
  result := nofun
  returned := by
    intro i hi
    exact nomatch hi

/-- A call with parameters that do not fit. -/
theorem checked_of_misfit {envelope : Json} {f : Fault}
    (hparams : m.checkParams c.params = .error f) :
    Exchange.Checked ⟨envelope, st, ⟨s.respond c (.error f), c.isNotification⟩, st, []⟩
      s authenticated c m where
  invoked := by
    intro i hi
    exact nomatch hi
  misfit := by
    intro _ _ _
    obtain ⟨reason, rfl⟩ := Method.invalidParams_of_checkParams hparams
    exact ⟨s.failsWith_of_fault c _, rfl, rfl⟩
  reached := by
    intro _ hfits
    exact nomatch hparams.symm.trans (Method.checkParams_eq_ok_iff.mpr hfits)
  result := nofun
  returned := by
    intro i hi
    exact nomatch hi

/-- A call that reaches the handler. -/
theorem checked_of_invoked {envelope : Json} (hparams : m.checkParams c.params = .ok ()) :
    Exchange.Checked ⟨envelope, st,
      ⟨s.respond c (m.conclude (m.handler (m.context c authenticated) c.params st).1),
        c.isNotification⟩,
      (m.handler (m.context c authenticated) c.params st).2,
      [m.invocation (m.context c authenticated) c.params st]⟩ s authenticated c m where
  invoked := by
    intro i hi
    obtain rfl := List.mem_singleton.mp hi
    exact ⟨rfl, rfl, Method.checkParams_eq_ok_iff.mp hparams⟩
  misfit := by
    intro _ hvalidate hnot
    exact absurd (Method.checkParams_eq_ok_iff.mp hparams hvalidate) hnot
  reached := by
    intro _ _
    exact ⟨rfl, rfl⟩
  result := by
    intro v hv
    cases hconclude : m.conclude (m.handler (m.context c authenticated) c.params st).1 with
    | error f =>
        rw [hconclude] at hv
        exact nomatch hv
    | ok w =>
        rw [hconclude] at hv
        obtain rfl : w = v := Option.some.inj hv
        obtain ⟨houtcome, hresult⟩ := Method.value_of_conclude hconclude
        exact ⟨⟨_, List.mem_singleton_self _, houtcome⟩, Method.checkResult_eq_ok_iff.mp hresult⟩
  returned := by
    intro i hi v hv
    obtain rfl := List.mem_singleton.mp hi
    have houtcome : (m.handler (m.context c authenticated) c.params st).1 = .value v := hv
    rw [houtcome]
    -- a value of the wrong kind is the method's own failure
    by_cases hmisfit : m.validate = true ∧ m.signature.returns.admits v = false
    · rw [if_pos hmisfit]
      obtain ⟨detail, hconclude⟩ := Method.conclude_of_misfit hmisfit.1 hmisfit.2
      rw [hconclude]
      exact s.failsWith_of_fault c _
    · rw [if_neg hmisfit, Method.conclude_of_fit (fun hvalidate =>
        eq_true_of_ne_false fun hother => hmisfit ⟨hvalidate, hother⟩)]
      exact ⟨rfl, rfl⟩

/-- Every call of a registered method is checked as the method asks for. -/
theorem exchange_checked {v : Json} (hcalls : (s.exchange authenticated v st).Calls s c m) :
    (s.exchange authenticated v st).Checked s authenticated c m := by
  have hcall : Call.ofJson v = .ok c := hcalls.1
  obtain ⟨r, st', called, hcarried, hx⟩ := s.exchange_of_call authenticated hcall st
  rw [hx]
  rcases hcarried.of_found s authenticated hcalls.2 with
    ⟨hrequires, hanonymous, rfl, rfl, rfl⟩
    | ⟨-, ⟨f, hparams, rfl, rfl, rfl⟩ | ⟨hparams, rfl, rfl, rfl⟩⟩
  · refine s.checked_of_refused ?_
    rw [admits_iff, hanonymous]
    exact fun h => nomatch h hrequires
  · exact s.checked_of_misfit hparams
  · exact s.checked_of_invoked hparams

/-- Handlers are called only for requests that name their method. -/
theorem calls_of_invocation {v : Json} {i : Invocation σ}
    (hi : i ∈ (s.exchange authenticated v st).invocations) :
    ∃ c m, (s.exchange authenticated v st).Calls s c m := by
  rcases s.exchange_quiet_or_called authenticated v st with ⟨-, hnone⟩ | ⟨c, m, hcall, hfind, -⟩
  · rw [hnone] at hi
    exact nomatch hi
  · exact ⟨c, m, hcall, hfind⟩

/-- Checks around handlers. Take a service whose methods have been registered, in any order and with
    failures in between, and any body. A handler is called only in an exchange that calls its method
    by name, and such an exchange is checked as was asked for when the method was registered, under
    the signature that was read from the text of the registration. -/
theorem validation_sound {rs : List (Registration σ)} (hs : s.table = .ofRegistrations rs)
    (authenticated : Bool) (body : ByteArray) (st : σ) :
    ∃ xs, s.ComesTo authenticated body st xs
      ∧ (∀ x ∈ xs, ∀ i ∈ x.invocations, ∃ c m, x.Calls s c m)
      ∧ ∀ x ∈ xs, ∀ c m, x.Calls s c m →
        (∃ r ∈ rs, ∃ sig, Signature.parse r.text r.terms.parameterNames = .ok sig
          ∧ m = Method.make sig r.handler r.terms)
        ∧ Params.ofMember? (x.envelope.get? "params") = some c.params
        ∧ x.Checked s authenticated c m := by
  refine ⟨_, s.comesTo_exchangesOf authenticated body st, ?_, ?_⟩
  · refine s.forall_exchanges authenticated ?_ _ st
    intro v st' i hi
    exact s.calls_of_invocation hi
  · refine s.forall_exchanges authenticated ?_ _ st
    intro v st' c m hcalls
    refine ⟨?_, (Call.ofJson_eq_ok_iff.mp hcalls.1).2.1, s.exchange_checked hcalls⟩
    have hfind := hcalls.2
    rw [hs] at hfind
    obtain ⟨r, hr, hmethod⟩ := MethodTable.exists_registration hfind
    exact ⟨r, hr, Registration.method?_eq_some_iff.mp hmethod⟩

end Service

/-- A checked method that takes two numbers and promises one, and a text that is no signature. -/
def sumRegistrations : List (Registration Nat) :=
  [⟨"sum(a=Number, b=Number) -> Number", fun _ _ n => (.value (.str "three"), n + 1),
      { validate := true }⟩,
    ⟨"sum(", fun _ _ n => (.value .null, n), {}⟩]

/-- The method that comes of them. -/
def sumMethod : Method Nat :=
  .make ⟨"sum", some [⟨"a", .number⟩, ⟨"b", .number⟩], .number⟩
    (fun _ _ n => (.value (.str "three"), n + 1)) { validate := true }

/-- The service with what has been registered. -/
def sumService : Service Nat where
  table := .ofRegistrations sumRegistrations

/-- A call with one number too few, and one with more names than declared. -/
def sumBatch : ByteArray :=
  ("[\x7b\"method\":\"sum\",\"params\":[1]\x7d,\x7b\"jsonrpc\":\"2.0\",\"method\":\"sum\"," ++
    "\"params\":\x7b\"a\":1,\"b\":2,\"c\":null\x7d\x7d]").toUTF8

/-- The first call does not reach the handler. The second does, and the text that it returns is no
    number, so nobody is told what it is. -/
theorem sum_checked_twice :
    sumService.table = .ofRegistrations sumRegistrations
      ∧ ∃ x y c d, sumService.ComesTo false sumBatch 5 [x, y]
        ∧ x.Calls sumService c sumMethod ∧ y.Calls sumService d sumMethod
        ∧ ¬ sumMethod.signature.Fits c.params ∧ sumMethod.signature.Fits d.params
        ∧ x.reply.FailsWith (-32602) ∧ x.after = x.before ∧ x.invocations = []
        ∧ y.invocations = [sumMethod.invocation (sumMethod.context d false) d.params y.before]
        ∧ y.reply.FailsWith (-32603) := by
  have hs : sumService.table = .ofRegistrations sumRegistrations := rfl
  have hdecode : Body.decode sumBatch = .ok (.batch [
      .obj [("method", .str "sum"), ("params", .arr [.num (.int 1)])],
      .obj [("jsonrpc", .str "2.0"), ("method", .str "sum"), ("params",
        .obj [("a", .num (.int 1)), ("b", .num (.int 2)), ("c", .null)])]]) := by decide +kernel
  obtain ⟨xs, hcomes, -, hchecked⟩ := sumService.validation_sound hs false sumBatch 5
  have henvelopes := hcomes.envelopes
  rw [hdecode] at henvelopes
  obtain ⟨x, y, rfl, hx, hy⟩ := Exchange.eq_pair_of_envelopes henvelopes
  have hxcalls : x.Calls sumService ⟨.v1, "sum", .positional [.num (.int 1)], none⟩ sumMethod :=
    ⟨by rw [hx]; rfl, rfl⟩
  have hycalls : y.Calls sumService ⟨.v2, "sum", .named [("a", .num (.int 1)),
      ("b", .num (.int 2)), ("c", .null)], none⟩ sumMethod := ⟨by rw [hy]; rfl, rfl⟩
  obtain ⟨-, -, hxchecked⟩ := hchecked x List.mem_cons_self _ _ hxcalls
  obtain ⟨-, -, hychecked⟩ := hchecked y (List.mem_cons_of_mem _ List.mem_cons_self) _ _ hycalls
  have hadmits : sumService.Admits false sumMethod := (sumService.admits_iff).mpr nofun
  have hdeclared : sumMethod.signature.parameters?
      = some [⟨"a", .number⟩, ⟨"b", .number⟩] := rfl
  have hmisfit := (violation?_eq_none_iff hdeclared (.positional [.num (.int 1)])).not.mp (by decide)
  have hfits := (violation?_eq_none_iff hdeclared (.named [("a", .num (.int 1)),
    ("b", .num (.int 2)), ("c", .null)])).mp (by decide)
  obtain ⟨hreply, hafter, hnone⟩ := hxchecked.misfit hadmits rfl hmisfit
  have hcalled := (hychecked.reached hadmits fun _ => hfits).1
  have hreturned := hychecked.returned _ (by rw [hcalled]; exact List.mem_singleton_self _) _ rfl
  rw [if_pos ⟨rfl, rfl⟩] at hreturned
  exact ⟨hs, x, y, _, _, hcomes, hxcalls, hycalls, hmisfit, hfits, hreply, hafter, hnone, hcalled,
    hreturned⟩

end Switchboard
