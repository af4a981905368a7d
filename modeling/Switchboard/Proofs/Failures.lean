import Switchboard.Proofs.Validation

/-!
# How a handler failed

A handler that fails has its fault reported, and one that panics is reported
as if it had raised an internal fault. There is one mapping from faults to
error objects, but a handler's fault does not go through it as it is: unless it
is about the call, it is first put into words and wrapped into an internal
fault.

For most faults that makes no difference, because the mapping would have put
them into the same words. It does for two. A parse fault is then no longer a
parse error to the caller. An internal fault is reported with its own words as
the detail, and after the wrapping with those words behind a second heading.
-/

namespace Switchboard

variable {σ : Type}

/-- An internal error with a text somewhere in its detail. -/
def ErrorBody.Mentions (e : ErrorBody) (text : String) : Prop :=
  ∃ detail, e = ⟨-32603, "Internal error", some (.obj [("detail", .str detail)])⟩
    ∧ text.toList <:+: detail.toList

/-- What a response says about a handler that ended without a value: no result, and a fault as the
    mapping has it unless it is a parse fault or an internal one. A parse fault or a panic is
    reported as an internal error, and an internal fault as one whose detail begins with a
    heading. -/
structure Response.Reports (r : Response) (o : Outcome) : Prop where
  result : (∀ v, o ≠ .value v) → r.result? = none
  mapped : ∀ f, o = .fault f →
    (r.error? = some f.toErrorBody ↔ ∀ detail, f ≠ .parse detail ∧ f ≠ .internal detail)
  parse : ∀ detail, o = .fault (.parse detail) → ∃ e, r.error? = some e ∧ e.Mentions detail
  internal : ∀ detail, o = .fault (.internal detail) →
    r.error? = some (Fault.internal ("Internal error: " ++ detail)).toErrorBody
  panic : ∀ text?, o = .panic text? → ∃ e, r.error? = some e ∧ e.Mentions (text?.getD "")

/-! ## Wrapping -/

namespace Fault

/-- What the caller is told of a fault that is raised by a handler. -/
def passedOn (f : Fault) : Fault := if f.isProtocol then f else .internal f.message

/-- Internal errors with the same body have the same detail. -/
theorem internalBody_inj {a b : String} (h : internalBody a = internalBody b) : a = b := by
  have hdata := congrArg ErrorBody.data? h
  have hdetail : Json.object [("detail", .str a)] = .object [("detail", .str b)] :=
    Option.some.inj hdata
  injection hdetail with hmembers
  injection hmembers with hmember
  injection hmember with _ hvalue
  injection hvalue

/-- The wrapping makes no difference to what is reported, except for parse faults and internal
    ones. -/
theorem passedOn_toErrorBody_iff (f : Fault) :
    f.passedOn.toErrorBody = f.toErrorBody
      ↔ ∀ detail, f ≠ .parse detail ∧ f ≠ .internal detail := by
  cases f with
  | parse detail =>
      constructor
      · intro h
        exact absurd (congrArg ErrorBody.code h) (show ¬(-32603 : Int) = -32700 by decide)
      · intro h
        exact absurd rfl (h detail).1
  | internal detail =>
      constructor
      · intro h
        -- the heading would have to be empty
        have hsame : "Internal error: " ++ detail = detail := internalBody_inj h
        simp at hsame
      · intro h
        exact absurd rfl (h detail).2
  | remote | invalidRequest | methodNotFound | invalidParams | unauthenticated | invalidSignature
  | serialization | transport | usage =>
      constructor
      · intro _ _
        exact ⟨nofun, nofun⟩
      · intro _
        rfl

/-- The words behind a heading are mentioned. -/
theorem internalBody_mentions (heading text : String) :
    (internalBody (heading ++ text)).Mentions text := by
  refine ⟨heading ++ text, rfl, ?_⟩
  rw [String.toList_append]
  exact (List.suffix_append _ _).isInfix

end Fault

/-! ## Reports -/

theorem Method.conclude_fault (m : Method σ) (f : Fault) :
    m.conclude (.fault f) = .error f.passedOn := rfl

namespace Service

variable {s : Service σ} {authenticated : Bool}

/-- Without redaction every fault is answered as the mapping has it. -/
theorem errorBody_of_open (hopen : s.policy.redactInternal = false) (f : Fault) :
    s.errorBody f = f.toErrorBody := by
  cases f <;> simp [errorBody, hopen]

/-- What is answered to a call whose handler ended in a certain way reports that. -/
theorem respond_reports (hopen : s.policy.redactInternal = false) (c : Call) (m : Method σ)
    (o : Outcome) : (s.respond c (m.conclude o)).Reports o where
  result := by
    intro hnone
    cases o with
    | value v => exact absurd rfl (hnone v)
    | fault f => rfl
    | panic text? => rfl
  mapped := by
    rintro f rfl
    rw [← Fault.passedOn_toErrorBody_iff, m.conclude_fault]
    show some (s.errorBody f.passedOn) = some f.toErrorBody ↔ _
    rw [errorBody_of_open hopen]
    exact Option.some_inj
  parse := by
    rintro detail rfl
    refine ⟨_, rfl, ?_⟩
    rw [errorBody_of_open hopen]
    exact Fault.internalBody_mentions "Parse error: " detail
  internal := by
    rintro detail rfl
    show some (s.errorBody _) = _
    rw [errorBody_of_open hopen]
    rfl
  panic := by
    rintro text? rfl
    refine ⟨_, rfl, ?_⟩
    rw [errorBody_of_open hopen]
    cases text? with
    | none => exact Fault.internalBody_mentions "handler panicked" ""
    | some text => exact Fault.internalBody_mentions "handler panicked: " text

/-- An exchange that calls a method, may do so and has parameters that pass, calls the handler and
    reports how it ended. -/
theorem exchange_reports (hopen : s.policy.redactInternal = false) {v : Json} {st : σ} {c : Call}
    {m : Method σ} (hcalls : (s.exchange authenticated v st).Calls s c m)
    (hadmits : s.Admits authenticated m) (hparams : m.checkParams c.params = .ok ()) :
    (s.exchange authenticated v st).invocations
        = [m.invocation (m.context c authenticated) c.params st]
      ∧ (s.exchange authenticated v st).reply.response.Reports
        (m.handler (m.context c authenticated) c.params st).1 := by
  have hcall : Call.ofJson v = .ok c := hcalls.1
  obtain ⟨r, st', called, hcarried, hx⟩ := s.exchange_of_call authenticated hcall st
  rw [hx]
  rcases hcarried.of_found s authenticated hcalls.2 with
    ⟨hrequires, hanonymous, -⟩ | ⟨-, ⟨f, hmisfit, -⟩ | ⟨-, rfl, -, rfl⟩⟩
  · exact nomatch hanonymous.symm.trans (s.admits_iff.mp hadmits hrequires)
  · exact nomatch hparams.symm.trans hmisfit
  · exact ⟨rfl, respond_reports hopen c m _⟩

/-- Reports of handlers. Take a service that holds nothing back, and any body. Every exchange that
    calls a method, is allowed to and passes the check of its parameters calls the handler once, and
    its response reports how the handler ended. Faults are reported as the one mapping from faults
    to error objects has them, parse faults and internal ones apart: those become internal errors
    whose details hold their words behind a heading. -/
theorem handler_failures_reported (s : Service σ) (hopen : s.policy.redactInternal = false)
    (authenticated : Bool) (body : ByteArray) (st : σ) :
    ∃ xs, s.ComesTo authenticated body st xs
      ∧ ∀ x ∈ xs, ∀ c m, x.Calls s c m → s.Admits authenticated m →
        m.checkParams c.params = .ok () →
        x.invocations = [m.invocation (m.context c authenticated) c.params x.before]
          ∧ x.reply.response.Reports (m.handler (m.context c authenticated) c.params x.before).1 := by
  refine ⟨_, s.comesTo_exchangesOf authenticated body st, ?_⟩
  refine s.forall_exchanges authenticated ?_ _ st
  intro v st' c m hcalls hadmits hparams
  exact exchange_reports hopen hcalls hadmits hparams

end Service

/-- A service with two methods that fail, each in its own way. -/
def diskService : Service Unit where
  table := .ofRegistrations
    [⟨"load", fun _ _ st => (.fault (.transport "no disk"), st), {}⟩,
      ⟨"save", fun _ _ st => (.fault (.internal "disk full"), st), {}⟩]

/-- A call of each of them. -/
def diskBatch : ByteArray :=
  "[\x7b\"method\":\"load\",\"id\":1\x7d,\x7b\"method\":\"save\",\"id\":2\x7d]".toUTF8

/-- One fault is reported as it is, the other behind a heading. -/
theorem disk_failures_reported :
    diskService.policy.redactInternal = false
      ∧ ∃ x y, diskService.ComesTo false diskBatch () [x, y]
        ∧ x.reply.response.error? = some (Fault.transport "no disk").toErrorBody
        ∧ y.reply.response.error? = some (Fault.internal "Internal error: disk full").toErrorBody := by
  have hdecode : Body.decode diskBatch = .ok (.batch [
      .obj [("id", .num (.int 1)), ("method", .str "load")],
      .obj [("id", .num (.int 2)), ("method", .str "save")]]) := by decide +kernel
  obtain ⟨xs, hcomes, hreports⟩ := diskService.handler_failures_reported rfl false diskBatch ()
  have henvelopes := hcomes.envelopes
  rw [hdecode] at henvelopes
  obtain ⟨x, y, rfl, hx, hy⟩ := Exchange.eq_pair_of_envelopes henvelopes
  have hload : x.Calls diskService ⟨.v1, "load", .positional [], some (.number (.int 1))⟩
      (.make (.wildcard "load") (fun _ _ st => (.fault (.transport "no disk"), st)) {}) :=
    ⟨by rw [hx]; rfl, rfl⟩
  have hsave : y.Calls diskService ⟨.v1, "save", .positional [], some (.number (.int 2))⟩
      (.make (.wildcard "save") (fun _ _ st => (.fault (.internal "disk full"), st)) {}) :=
    ⟨by rw [hy]; rfl, rfl⟩
  obtain ⟨-, hloaded⟩ := hreports x List.mem_cons_self _ _ hload
    (diskService.admits_iff.mpr nofun) rfl
  obtain ⟨-, hsaved⟩ := hreports y (List.mem_cons_of_mem _ List.mem_cons_self) _ _ hsave
    (diskService.admits_iff.mpr nofun) rfl
  exact ⟨rfl, x, y, hcomes, (hloaded.mapped _ rfl).mpr fun _ => ⟨nofun, nofun⟩,
    hsaved.internal _ rfl⟩

/-- The request to save. -/
def saveRequest : ByteArray := "\x7b\"method\":\"save\",\"id\":1\x7d".toUTF8

/-- An internal fault is not reported as the mapping has it: the caller is told twice that it is
    an internal error. -/
theorem internal_fault_reported_otherwise :
    diskService.policy.redactInternal = false
      ∧ (diskService.exchangesOf false saveRequest ()).map
          (fun x => (x.invocations.map (·.outcome), x.reply.response.error?))
        = [([.fault (.internal "disk full")],
            some (Fault.internal "Internal error: disk full").toErrorBody)]
      ∧ (Fault.internal "Internal error: disk full").toErrorBody
        ≠ (Fault.internal "disk full").toErrorBody
      ∧ (diskService.answerText saveRequest false).value ()
        = "\x7b\"error\":\x7b\"code\":-32603,\"message\":\"Internal error\"," ++
          "\"data\":\x7b\"detail\":\"Internal error: disk full\"\x7d\x7d,\"id\":1\x7d" := by
  refine ⟨rfl, by decide +kernel, by decide, by decide +kernel⟩

end Switchboard
