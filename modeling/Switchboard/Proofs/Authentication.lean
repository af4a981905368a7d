import Switchboard.Proofs.Exchange

/-!
# Callers who are not known

A method is GUARDED if only known callers may call it: it is not safe, and it
asks for a known caller itself or the service asks for one everywhere. An
anonymous caller of a guarded method is turned away before anything else is
looked at, so that its handler is not called and nothing changes.

The gate stands in front of registered methods. The listing of all methods
is served where the look-up of a method fails, which is in front of the gate:
`showsOnlySafe_iff` says that this is the one way in which a service that
asks for known callers everywhere tells an anonymous one anything that no
safe method returned.
-/

namespace Switchboard

variable {σ : Type}

/-- Only known callers may call the method. -/
def Service.Guards (s : Service σ) (m : Method σ) : Prop :=
  m.safe = false ∧ (m.authenticated = true ∨ s.policy.requireAuthentication = true)

/-- The code of the error of a response. -/
def Response.code? (r : Response) : Option Int := r.error?.map ErrorBody.code

/-- The envelope of an exchange is a request, and it names a registered method. -/
def Exchange.Calls (x : Exchange σ) (s : Service σ) (c : Call) (m : Method σ) : Prop :=
  Call.ofJson x.envelope = .ok c ∧ s.table.find? c.method = some m

/-- The reply to a call that is turned away. -/
def Call.turnedAway (c : Call) : Reply where
  response := .failure c.version
    ⟨401, "Authentication required", some (.obj [("method", .str c.method)])⟩ c.responseId
  isNotification := c.isNotification

namespace Service

variable (s : Service σ) {authenticated : Bool} {c : Call} {m : Method σ} {st st' : σ}
  {r : Except Fault Json} {called : List (Invocation σ)}

theorem guards_iff : s.Guards m ↔
    m.requiresAuthentication s.policy.requireAuthentication = true := by
  unfold Guards Method.requiresAuthentication
  simp only [Bool.and_eq_true, Bool.not_eq_true', Bool.or_eq_true]

/-! ## The gate -/

/-- The handlers of guarded methods are not called for anonymous callers. -/
theorem not_guards_of_called (h : Carried s false c st r st' called) :
    ∀ i ∈ called, ¬ s.Guards i.method := by
  intro i hi
  cases h with
  | invoked hfind hcaller hparams =>
      obtain rfl := List.mem_singleton.mp hi
      intro hguards
      exact nomatch hcaller (s.guards_iff.mp hguards)
  | listing => exact nomatch hi
  | unknown => exact nomatch hi
  | refused => exact nomatch hi
  | misfit => exact nomatch hi

/-- An anonymous call of a guarded method is turned away and changes nothing. -/
theorem carried_of_guards (h : Carried s false c st r st' called)
    (hfind : s.table.find? c.method = some m) (hguards : s.Guards m) :
    r = .error (.unauthenticated c.method) ∧ st' = st ∧ called = [] := by
  -- no other method is found, so nothing that lets the caller through can have happened
  have hadmitted : ∀ {n : Method σ}, s.table.find? c.method = some n →
      ¬(n.requiresAuthentication s.policy.requireAuthentication = true → false = true) := by
    intro n hn hcaller
    obtain rfl : m = n := Option.some.inj (hfind.symm.trans hn)
    exact nomatch hcaller (s.guards_iff.mp hguards)
  cases h with
  | refused => exact ⟨rfl, rfl, rfl⟩
  | listing hnone => exact nomatch hfind.symm.trans hnone
  | unknown hnone => exact nomatch hfind.symm.trans hnone
  | misfit hn hcaller => exact absurd hcaller (hadmitted hn)
  | invoked hn hcaller => exact absurd hcaller (hadmitted hn)

/-- A call ends in a fault of code 401 only at the gate or because the handler
    raised one. -/
theorem origin_of_401 {f : Fault} (h : Carried s authenticated c st (.error f) st' called)
    (hcode : f.toErrorBody.code = 401) :
    (authenticated = false ∧ ∃ m, s.table.find? c.method = some m ∧ s.Guards m)
      ∨ ∃ i ∈ called, i.outcome = .fault f := by
  generalize hr : Except.error f = r at h
  cases h with
  | listing => exact nomatch hr
  -- the faults that the service finds itself have other codes
  | unknown =>
      obtain rfl := Except.error.inj hr
      exact absurd hcode (show ¬(-32601 : Int) = 401 by decide)
  | refused hfind hrequires hcaller =>
      exact Or.inl ⟨hcaller, _, hfind, s.guards_iff.mpr hrequires⟩
  | misfit hfind hcaller hparams =>
      obtain rfl := Except.error.inj hr
      obtain ⟨reason, rfl⟩ := Method.invalidParams_of_checkParams hparams
      exact absurd hcode (show ¬(-32602 : Int) = 401 by decide)
  | invoked hfind hcaller hparams =>
      rcases Method.fault_of_conclude hr.symm with ⟨houtcome, -⟩ | ⟨detail, rfl⟩
      · exact Or.inr ⟨_, List.mem_singleton_self _, houtcome⟩
      · exact absurd hcode (show ¬(-32603 : Int) = 401 by decide)

/-- Holding back data keeps the code of an error. -/
theorem errorBody_code (f : Fault) : (s.errorBody f).code = f.toErrorBody.code := by
  unfold errorBody
  split
  · rfl
  · split <;> rfl

/-- An error has the code of its fault, whatever is redacted in it. -/
theorem failure_code? (version : Version) (f : Fault) (id : Id) :
    (Response.failure version (s.errorBody f) id).code? = some f.toErrorBody.code :=
  congrArg some (s.errorBody_code f)

/-! ## Bodies from anonymous callers -/

/-- The faults of bodies of which nothing can be made have other codes. -/
theorem undecodable_code_ne (u : Undecodable) : u.fault.toErrorBody.code ≠ 401 := by
  cases u <;> decide

/-- An exchange with an anonymous caller of a guarded method. -/
theorem exchange_of_guards {v : Json} (hcalls : (s.exchange false v st).Calls s c m)
    (hguards : s.Guards m) :
    (s.exchange false v st).reply = c.turnedAway
      ∧ (s.exchange false v st).after = (s.exchange false v st).before
      ∧ (s.exchange false v st).invocations = [] := by
  have hcall : Call.ofJson v = .ok c := hcalls.1
  obtain ⟨r, st', called, hcarried, hx⟩ := exchange_of_call s false hcall st
  obtain ⟨rfl, rfl, rfl⟩ := s.carried_of_guards hcarried hcalls.2 hguards
  rw [hx]
  exact ⟨rfl, rfl, rfl⟩

/-- An exchange with an anonymous caller calls no handler of a guarded method. -/
theorem exchange_not_guards (v : Json) (st : σ) :
    ∀ i ∈ (s.exchange false v st).invocations, ¬ s.Guards i.method := by
  cases hcall : Call.ofJson v with
  | ok c =>
      obtain ⟨r, st', called, hcarried, hx⟩ := exchange_of_call s false hcall st
      rw [hx]
      exact s.not_guards_of_called hcarried
  | error j =>
      rw [exchange_of_rejection s false hcall]
      exact fun i hi => absurd hi List.not_mem_nil

/-- An exchange ends in the code 401 only at the gate or because a handler raised
    a fault of that code. -/
theorem exchange_origin_of_401 (v : Json) (st : σ)
    (hcode : (s.exchange authenticated v st).reply.response.code? = some 401) :
    (authenticated = false ∧ ∃ c m, (s.exchange authenticated v st).Calls s c m ∧ s.Guards m)
      ∨ ∃ i ∈ (s.exchange authenticated v st).invocations, ∃ f, i.outcome = .fault f ∧
          f.toErrorBody.code = 401 := by
  cases hcall : Call.ofJson v with
  | ok c =>
      obtain ⟨r, st', called, hcarried, hx⟩ := exchange_of_call s authenticated hcall st
      rw [hx] at hcode ⊢
      cases r with
      | ok result => exact nomatch hcode
      | error f =>
          have hf : f.toErrorBody.code = 401 :=
            Option.some.inj ((s.failure_code? c.version f c.responseId).symm.trans hcode)
          rcases s.origin_of_401 hcarried hf with ⟨hcaller, m, hfind, hguards⟩ | ⟨i, hi, houtcome⟩
          · exact Or.inl ⟨hcaller, c, m, ⟨hcall, hfind⟩, hguards⟩
          · exact Or.inr ⟨i, hi, f, houtcome, hf⟩
  | error j =>
      rw [exchange_of_rejection s authenticated hcall, failure_code?] at hcode
      exact absurd (Option.some.inj hcode) (show ¬(-32600 : Int) = 401 by decide)

/-- The gate. A body from an anonymous caller comes to one exchange for each of its
    envelopes, in order, and to the state after the last of them. On the way no
    handler of a guarded method is called. Each request for one, wherever it stands
    in the body and whatever its parameters are, is turned away and leaves the state
    of the application as it was. And whoever calls, a reply of code 401 comes from
    this gate or from a fault of that code that a handler raised. -/
theorem anonymous_callers_turned_away (body : ByteArray) (st : σ) :
    (s.exchangesOf false body st).map Exchange.envelope = Body.envelopes (Body.decode body)
      ∧ (s.answer body false).after st = Exchange.last st (s.exchangesOf false body st)
      ∧ (∀ i ∈ s.invocations false body st, ¬ s.Guards i.method)
      ∧ (∀ x ∈ s.exchangesOf false body st, ∀ c m, x.Calls s c m → s.Guards m →
          x.reply ∈ ((s.answer body false).value st).replies
            ∧ x.reply = c.turnedAway ∧ x.after = x.before ∧ x.invocations = [])
      ∧ ∀ authenticated, ∀ reply ∈ ((s.answer body authenticated).value st).replies,
          reply.response.code? = some 401 →
          ∃ x ∈ s.exchangesOf authenticated body st, x.reply = reply ∧
            ((authenticated = false ∧ ∃ c m, x.Calls s c m ∧ s.Guards m)
              ∨ ∃ i ∈ x.invocations, ∃ f, i.outcome = .fault f ∧ f.toErrorBody.code = 401) := by
  refine ⟨s.exchanges_envelope false _ st, s.answer_after false body st, ?_, ?_, ?_⟩
  · intro i hi
    rw [invocations_eq] at hi
    obtain ⟨x, hx, hi⟩ := List.mem_flatMap.mp hi
    obtain ⟨v, -, st', rfl⟩ := exists_of_mem_exchanges s false hx
    exact s.exchange_not_guards v st' i hi
  · intro x hx c m hcalls hguards
    refine ⟨s.reply_mem_of_mem_exchangesOf false hx, ?_⟩
    obtain ⟨v, -, st', rfl⟩ := exists_of_mem_exchanges s false hx
    exact s.exchange_of_guards hcalls hguards
  · intro authenticated reply hreply hcode
    rcases s.exists_of_mem_replies authenticated hreply with
      ⟨u, rfl⟩ | ⟨x, hx, rfl, v, st', rfl⟩
    · rw [failure_code?] at hcode
      exact absurd (Option.some.inj hcode) (undecodable_code_ne u)
    · exact ⟨_, hx, rfl, s.exchange_origin_of_401 v st' hcode⟩

end Service

/-- A service with one method, which counts its calls and is for known callers. -/
def countingService : Service Nat where
  table := ⟨[Method.make (.wildcard "bump") (fun _ _ n => (.value (.ofInt n), n + 1))
    { authenticated := true }]⟩

/-- A call of the counting method, inside a batch behind something else. -/
def bumpBatch : ByteArray := "[1,\x7b\"method\":\"bump\",\"id\":7\x7d]".toUTF8

theorem decode_bumpBatch : Body.decode bumpBatch = .ok (.batch
    [.num (.int 1), .obj [("id", .num (.int 7)), ("method", .str "bump")]]) := by
  unfold Body.decode
  rw [show Json.ofBytes? bumpBatch = some (.arr
    [.num (.int 1), .obj [("id", .num (.int 7)), ("method", .str "bump")]]) by decide +kernel]
  rfl

/-- The gate at work: nobody counts for an anonymous caller, who is told so. -/
theorem anonymous_bump_turned_away :
    ∃ x ∈ countingService.exchangesOf false bumpBatch 5, ∃ c m,
      x.Calls countingService c m ∧ countingService.Guards m ∧ c.responseId = .ofNat 7
        ∧ x.reply = c.turnedAway ∧ x.after = x.before ∧ x.invocations = []
        ∧ x.reply.response.code? = some 401
        ∧ ∃ y ∈ countingService.exchangesOf false bumpBatch 5, y.reply = x.reply := by
  obtain ⟨-, -, -, hgate, horigin⟩ := countingService.anonymous_callers_turned_away bumpBatch 5
  have hmem : countingService.exchange false
        (.obj [("id", .num (.int 7)), ("method", .str "bump")]) 5
      ∈ countingService.exchangesOf false bumpBatch 5 := by
    unfold Service.exchangesOf
    rw [decode_bumpBatch]
    exact List.mem_cons_of_mem _ List.mem_cons_self
  have hcalls : (countingService.exchange false
        (.obj [("id", .num (.int 7)), ("method", .str "bump")]) 5).Calls countingService
      ⟨.v1, "bump", .positional [], some (.ofNat 7)⟩ (countingService.table.methods.head (by decide)) :=
    ⟨rfl, rfl⟩
  have hguards : countingService.Guards (countingService.table.methods.head (by decide)) :=
    ⟨rfl, Or.inl rfl⟩
  obtain ⟨hreply, hturned, hafter, hcalled⟩ := hgate _ hmem _ _ hcalls hguards
  have hcode : (Call.turnedAway ⟨.v1, "bump", .positional [], some (.ofNat 7)⟩).response.code?
      = some 401 := rfl
  obtain ⟨y, hy, hsame, -⟩ := horigin false _ hreply (by rw [hturned]; exact hcode)
  exact ⟨_, hmem, _, _, hcalls, hguards, rfl, hturned, hafter, hcalled,
    by rw [hturned]; exact hcode, y, hy, hsame⟩

/-! ## What an anonymous caller is told -/

/-- A reply is an error and carries no result. -/
def Reply.Refuses (r : Reply) : Prop :=
  r.response.result? = none ∧ r.response.error?.isSome = true

/-- The reply of an exchange is the value that the handler of a safe method, which
    the envelope asked for, returned. -/
def Exchange.ShowsSafe (x : Exchange σ) (s : Service σ) : Prop :=
  ∃ c m v, x.Calls s c m ∧ m.safe = true ∧ x.reply.response.result? = some v
    ∧ ∃ i ∈ x.invocations, i.method = m ∧ i.outcome = .value v

/-- The reply of an exchange is the listing of all methods. -/
def Exchange.ShowsListing (x : Exchange σ) (s : Service σ) : Prop :=
  ∃ c, Call.ofJson x.envelope = .ok c ∧ c.method = describeMethod
    ∧ x.reply.response.result? = some s.table.describe

namespace Service

variable (s : Service σ) {c : Call} {st st' : σ} {called : List (Invocation σ)}

/-- Whoever asks for it is served the listing of all methods. -/
def ListsMethods : Prop :=
  s.policy.introspection = true ∧ s.table.find? describeMethod = none

/-- An anonymous caller who finds the service in a state is told nothing but what
    safe methods return; every other reply is an error. -/
def ShowsOnlySafe (st : σ) : Prop :=
  ∀ body, ∀ reply ∈ ((s.answer body false).value st).replies,
    reply.Refuses ∨ ∃ x ∈ s.exchangesOf false body st, x.reply = reply ∧ x.ShowsSafe s

/-- Where known callers are asked for everywhere, the methods that are open to an
    anonymous one are the safe ones. -/
theorem safe_of_admitted {m : Method σ} (hpolicy : s.policy.requireAuthentication = true)
    (hcaller : m.requiresAuthentication s.policy.requireAuthentication = true → false = true) :
    m.safe = true := by
  cases hsafe : m.safe with
  | true => rfl
  | false => exact nomatch hcaller (s.guards_iff.mp ⟨hsafe, Or.inr hpolicy⟩)

/-- Where known callers are asked for everywhere, an exchange with an anonymous one
    is refused, shows what a safe method returned, or shows the listing. -/
theorem exchange_shows (hpolicy : s.policy.requireAuthentication = true) (v : Json) (st : σ) :
    (s.exchange false v st).reply.Refuses ∨ (s.exchange false v st).ShowsSafe s
      ∨ (s.exchange false v st).ShowsListing s ∧ s.ListsMethods := by
  cases hcall : Call.ofJson v with
  | error j =>
      rw [exchange_of_rejection s false hcall]
      exact Or.inl ⟨rfl, rfl⟩
  | ok c =>
      obtain ⟨r, st', called, hcarried, hx⟩ := exchange_of_call s false hcall st
      rw [hx]
      cases r with
      | error f => exact Or.inl ⟨rfl, rfl⟩
      | ok value =>
          refine Or.inr ?_
          -- a call ends in a value only if it is a listing or a handler has returned it
          generalize hvalue : Except.ok value = r at hcarried
          have hresult : (s.respond c r).result? = some value := by
            rw [← hvalue]
            rfl
          cases hcarried with
          | listing hnone hintrospection hname =>
              exact Or.inr ⟨⟨c, hcall, hname, rfl⟩, hintrospection, hname ▸ hnone⟩
          | @invoked m hfind hcaller hparams =>
              obtain ⟨houtcome, -⟩ := Method.value_of_conclude hvalue.symm
              exact Or.inl ⟨c, m, value, ⟨hcall, hfind⟩, s.safe_of_admitted hpolicy hcaller,
                hresult, m.invocation (m.context c false) c.params st,
                List.mem_singleton_self _, rfl, houtcome⟩
          | unknown => exact nomatch hvalue
          | refused => exact nomatch hvalue
          | misfit => exact nomatch hvalue

/-- The request for the listing of all methods. -/
def describeRequest : ByteArray := "\x7b\"method\":\"system.describe\"\x7d".toUTF8

theorem decode_describeRequest :
    Body.decode describeRequest = .ok (.single (.obj [("method", .str "system.describe")])) := by
  unfold Body.decode
  rw [show Json.ofBytes? describeRequest = some (.obj [("method", .str "system.describe")])
    by decide +kernel]
  rfl

/-- A service that lists its methods answers the request with the listing. -/
theorem exchange_describeRequest (hlists : s.ListsMethods) (st : σ) :
    (s.exchange false (.obj [("method", .str "system.describe")]) st).reply.response.result?
      = some s.table.describe := by
  obtain ⟨hintrospection, hnone⟩ := hlists
  obtain ⟨r, st', called, hcarried, hx⟩ := exchange_of_call s false
    (show Call.ofJson (.obj [("method", .str "system.describe")])
      = .ok ⟨.v1, describeMethod, .positional [], none⟩ from rfl) st
  rw [hx]
  cases hcarried with
  | listing => rfl
  | unknown _ hname => exact absurd ⟨hintrospection, rfl⟩ hname
  | refused hfind => exact nomatch hnone.symm.trans hfind
  | misfit hfind => exact nomatch hnone.symm.trans hfind
  | invoked hfind => exact nomatch hnone.symm.trans hfind

/-- A service that lists its methods shows the list to an anonymous caller, and no
    safe method returned it. -/
theorem not_showsOnlySafe_of_listsMethods (hlists : s.ListsMethods) (st : σ) :
    ¬ s.ShowsOnlySafe st := by
  intro honly
  have hreply := exchange_describeRequest s hlists st
  rcases honly describeRequest _ (by
      rw [answer_of_single s false decode_describeRequest]
      exact List.mem_singleton_self _) with ⟨hrefused, -⟩ | ⟨x, hx, -, c, m, -, hcalls, -⟩
  · exact nomatch hreply.symm.trans hrefused
  · -- the one exchange of the body names no registered method
    unfold exchangesOf at hx
    rw [decode_describeRequest] at hx
    obtain rfl := List.mem_singleton.mp hx
    obtain rfl : (⟨.v1, describeMethod, .positional [], none⟩ : Call) = c :=
      Except.ok.inj hcalls.1
    exact nomatch hlists.2.symm.trans hcalls.2

/-- Where known callers are asked for everywhere, an anonymous caller is told
    nothing but what safe methods return, unless callers may ask for the listing of
    all methods and no method takes its name. Then the listing is told as well,
    and nothing else. -/
theorem showsOnlySafe_iff (hpolicy : s.policy.requireAuthentication = true) (st : σ) :
    (s.ShowsOnlySafe st ↔ ¬ s.ListsMethods)
      ∧ ∀ body, ∀ reply ∈ ((s.answer body false).value st).replies, reply.Refuses
          ∨ ∃ x ∈ s.exchangesOf false body st, x.reply = reply
              ∧ (x.ShowsSafe s ∨ x.ShowsListing s ∧ s.ListsMethods) := by
  have hshown : ∀ body, ∀ reply ∈ ((s.answer body false).value st).replies, reply.Refuses
      ∨ ∃ x ∈ s.exchangesOf false body st, x.reply = reply
          ∧ (x.ShowsSafe s ∨ x.ShowsListing s ∧ s.ListsMethods) := by
    intro body reply hreply
    rcases s.exists_of_mem_replies false hreply with ⟨u, rfl⟩ | ⟨x, hx, rfl, v, st', rfl⟩
    · exact Or.inl ⟨rfl, rfl⟩
    · rcases s.exchange_shows hpolicy v st' with hrefused | hshows
      · exact Or.inl hrefused
      · exact Or.inr ⟨_, hx, rfl, hshows⟩
  refine ⟨⟨fun honly hlists => s.not_showsOnlySafe_of_listsMethods hlists st honly, ?_⟩, hshown⟩
  intro hlists body reply hreply
  rcases hshown body reply hreply with hrefused | ⟨x, hx, hsame, hsafe | ⟨-, hlisted⟩⟩
  · exact Or.inl hrefused
  · exact Or.inr ⟨x, hx, hsame, hsafe⟩
  · exact absurd hlisted hlists

end Service

/-- A service that asks for known callers everywhere, with one method for all. -/
def lobbyService : Service Nat where
  table := ⟨[Method.make (.wildcard "ping") (fun _ _ n => (.value (.str "pong"), n))
    { safe := true }]⟩
  policy := { requireAuthentication := true }

/-- Without a listing an anonymous caller is told what the safe method returns, and
    nothing else. -/
theorem lobby_showsOnlySafe :
    lobbyService.policy.requireAuthentication = true ∧ ¬ lobbyService.ListsMethods
      ∧ lobbyService.ShowsOnlySafe 0
      ∧ (lobbyService.answerText "\x7b\"method\":\"ping\"\x7d".toUTF8 false).value 0
        = "\x7b\"result\":\"pong\",\"id\":null\x7d" := by
  have hlists : ¬ lobbyService.ListsMethods := fun h => nomatch h.1
  exact ⟨rfl, hlists, (lobbyService.showsOnlySafe_iff rfl 0).1.mpr hlists, by decide +kernel⟩

/-- The counting service, which asks for known callers everywhere and lists its
    methods. -/
def listedService : Service Nat :=
  { countingService with policy := { requireAuthentication := true, introspection := true } }

/-- With a listing an anonymous caller is told of methods that are not safe. -/
theorem listing_shown_to_anonymous :
    listedService.policy.requireAuthentication = true ∧ ¬ listedService.ShowsOnlySafe 0
      ∧ (listedService.answerText Service.describeRequest false).value 0
        = "\x7b\"result\":[\x7b\"authenticated\":true,\"name\":\"bump\",\"params\":null," ++
          "\"returns\":\"Any\",\"safe\":false,\"signature\":\"bump -> Any\"," ++
          "\"validate\":false\x7d],\"id\":null\x7d" := by
  refine ⟨rfl, listedService.not_showsOnlySafe_of_listsMethods ⟨rfl, rfl⟩ 0, ?_⟩
  decide +kernel

end Switchboard
