import Mathlib.Data.List.Forall2
import Switchboard.Handler.Stock
import Switchboard.Proofs.Validation

/-!
# Keyword calls of tuple handlers

A handler that takes a tuple can be called by keyword if the names of its
parameters are known, from its signature or from the hint beside a bare name.
Such a call should be the same as the positional call with the values in the
order of the names. The two take different ways: a checked method looks at
named parameters name by name and at positional ones by number and position,
and the handler tries named parameters as an object first.

A tuple is never read from an object, so the handler ends up with the same
values (`bindParams_tuple`), and where every name has a value both checks come to
the same (`Signature.fits_layOut_iff`). What is left to differ is the wording of
the second check's complaint (`Service.keyword_calls_as_positional`).
-/

namespace Switchboard

variable {σ : Type}

/-! ## The two ways -/

/-- Named parameters are bound to a tuple as the values in the order of the names are. -/
theorem bindParams_tuple {names : List String} (hnames : names ≠ []) (shapes : List Shape)
    (members : Members) :
    bindParams (.tuple shapes) names (.named members)
      = bindParams (.tuple shapes) names (.positional (layOut names members)) := by
  have hobject : (Shape.tuple shapes).read (.obj members)
      = .error (.sort (.obj members) (Shape.tupleWording shapes.length)) := by
    unfold Shape.read
    rfl
  exact bindParams_of_mismatch hobject hnames

/-- A tuple handler that knows the names of its parameters does the same with named parameters as
    with their values in the order of the names. -/
theorem Handler.typed_tuple_named (shapes : List Shape) (run : Context → Json → σ → Outcome × σ)
    {ctx : Context} (hnames : ctx.parameterNames ≠ []) (members : Members) :
    Handler.typed (.tuple shapes) run ctx (.named members)
      = Handler.typed (.tuple shapes) run ctx
          (.positional (layOut ctx.parameterNames members)) := by
  funext st
  unfold Handler.typed
  rw [bindParams_tuple hnames]

/-- Where every declared parameter has a value, the values in the order of the declaration fit a
    signature exactly if the named parameters do. -/
theorem Signature.fits_layOut_iff {sig : Signature} {declared : List Parameter}
    (hdeclared : sig.parameters? = some declared) {members : Members}
    (hall : ∀ p ∈ declared, ∃ u, members.lookup p.name = some u) :
    sig.Fits (.positional (layOut (declared.map (·.name)) members))
      ↔ sig.Fits (.named members) := by
  rw [fits_positional_iff hdeclared, fits_named_iff hdeclared]
  unfold layOut
  rw [List.map_map, List.forall₂_map_right_iff, List.forall₂_same]
  refine forall₂_congr fun p hp => ?_
  obtain ⟨u, hu⟩ := hall p hp
  simp [hu]

namespace Method

variable {rs : List (Registration σ)} {name : String} {m : Method σ}
  (hfind : (MethodTable.ofRegistrations rs).find? name = some m)
include hfind

/-- The names of the parameters of a registered method are the declared ones, if it declares any. -/
theorem parameterNames_of_registered {declared : List Parameter}
    (hdeclared : m.signature.parameters? = some declared) :
    m.parameterNames = declared.map (·.name) := by
  obtain ⟨r, -, hmethod⟩ := MethodTable.exists_registration hfind
  obtain ⟨sig, -, rfl⟩ := Registration.method?_eq_some_iff.mp hmethod
  show (if sig.parameters?.isNone then r.terms.parameterNames
    else (sig.parameters?.getD []).map (·.name)) = _
  rw [show sig.parameters? = some declared from hdeclared]
  rfl

/-- Where every parameter of a registered method has a value, the values in the order of the names
    fit its signature exactly if the named parameters do. -/
theorem fits_layOut_iff {members : Members}
    (hall : ∀ name ∈ m.parameterNames, ∃ u, members.lookup name = some u) :
    m.signature.Fits (.positional (layOut m.parameterNames members))
      ↔ m.signature.Fits (.named members) := by
  cases hdeclared : m.signature.parameters? with
  | none => exact ⟨fun _ => .wildcard hdeclared, fun _ => .wildcard hdeclared⟩
  | some declared =>
      rw [parameterNames_of_registered hfind hdeclared] at hall ⊢
      exact Signature.fits_layOut_iff hdeclared fun p hp =>
        hall p.name (List.mem_map_of_mem hp)

end Method

/-! ## Calls -/

/-- Two exchanges come to the same: the replies are equal, and so are the states that are left. -/
def Exchange.SameOutcome (x y : Exchange σ) : Prop := x.reply = y.reply ∧ x.after = y.after

/-- The parameters of a call are turned down in an exchange: the caller is told so in some words and
    with no data, no handler is called and the state is left alone. -/
def Exchange.TurnsDown (x : Exchange σ) (c : Call) : Prop :=
  (∃ message, x.reply
    = ⟨.failure c.version ⟨-32602, message, none⟩ c.responseId, c.isNotification⟩)
  ∧ x.after = x.before ∧ x.invocations = []

namespace Service

variable (s : Service σ) {authenticated : Bool} {m : Method σ}

/-- Calls of one method are carried out alike if the caller may not make them, or if the parameters
    of both pass the first check and the handler takes them for the same. -/
theorem carryOut_congr {c c' : Call} (hmethod : c'.method = c.method)
    (hfind : s.table.find? c.method = some m)
    (h : s.Admits authenticated m →
      m.checkParams c.params = .ok () ∧ m.checkParams c'.params = .ok ()
        ∧ m.handler (m.context c' authenticated) c'.params
          = m.handler (m.context c authenticated) c.params) :
    s.carryOut c' authenticated = s.carryOut c authenticated := by
  have hfind' : s.table.find? c'.method = some m := hmethod ▸ hfind
  by_cases hcaller : m.requiresAuthentication s.policy.requireAuthentication = true →
      authenticated = true
  · obtain ⟨hparams, hparams', hhandler⟩ := h (s.admits_iff.mpr hcaller)
    rw [s.carryOut_of_admitted authenticated hfind hcaller,
      s.carryOut_of_admitted authenticated hfind' hcaller, hparams, hparams']
    exact invoke_congr hhandler
  · obtain ⟨hrequires, hanonymous⟩ := Classical.not_imp.mp hcaller
    obtain rfl : authenticated = false := eq_false_of_ne_true hanonymous
    rw [s.carryOut_of_refused hfind hrequires, s.carryOut_of_refused hfind' hrequires, hmethod]

/-- Requests of one version and id that are carried out alike come to the same. -/
theorem sameOutcome_of_carryOut {v w : Json} {c c' : Call} (hv : Call.ofJson v = .ok c)
    (hw : Call.ofJson w = .ok c') (hversion : c'.version = c.version) (hid : c'.id? = c.id?)
    (hcarry : s.carryOut c' authenticated = s.carryOut c authenticated) (st : σ) :
    (s.exchange authenticated v st).SameOutcome (s.exchange authenticated w st) := by
  obtain ⟨version, method, params, id?⟩ := c
  obtain ⟨version', method', params', id?'⟩ := c'
  obtain rfl : version' = version := hversion
  obtain rfl : id?' = id? := hid
  constructor
  · show (s.answerEnvelope v authenticated).value st = (s.answerEnvelope w authenticated).value st
    rw [s.answerEnvelope_value_of_call authenticated hv,
      s.answerEnvelope_value_of_call authenticated hw, hcarry]
    rfl
  · show (s.answerEnvelope v authenticated).after st = (s.answerEnvelope w authenticated).after st
    rw [s.answerEnvelope_after_of_call authenticated hv,
      s.answerEnvelope_after_of_call authenticated hw, hcarry]

/-- A call of a checked method that the caller may make, with parameters that do not fit, is turned
    down. -/
theorem turnsDown_of_misfit {v : Json} {c : Call} (hcall : Call.ofJson v = .ok c)
    (hfind : s.table.find? c.method = some m) (hadmits : s.Admits authenticated m)
    (hvalidate : m.validate = true) (hmisfit : ¬ m.signature.Fits c.params) (st : σ) :
    (s.exchange authenticated v st).TurnsDown c := by
  obtain ⟨r, st', called, hcarried, hx⟩ := s.exchange_of_call authenticated hcall st
  rw [hx]
  rcases hcarried.of_found s authenticated hfind with
    ⟨hrequires, hanonymous, -⟩ | ⟨-, ⟨f, hparams, rfl, rfl, rfl⟩ | ⟨hparams, -⟩⟩
  · exact nomatch hanonymous.symm.trans (s.admits_iff.mp hadmits hrequires)
  · obtain ⟨reason, rfl⟩ := Method.invalidParams_of_checkParams hparams
    exact ⟨⟨reason, rfl⟩, rfl, rfl⟩
  · exact absurd (Method.checkParams_eq_ok_iff.mp hparams hvalidate) hmisfit

/-- Keyword calls of tuple handlers. Take a method that has been registered with a handler that
    takes a tuple, and whose parameters have names, be it from its signature or from the hint beside
    a bare name. Take a request that calls it by keyword, and the positional request of the same id
    with the values in the order of the names. If the method is not checked, both come to the same,
    whoever asks and whatever is missing; a missing value counts as `null`. If every name has a
    value, both come to the same too, unless the method is checked and neither fits its signature:
    then both are turned down, perhaps in other words. -/
theorem keyword_calls_as_positional {rs : List (Registration σ)}
    (hs : s.table = .ofRegistrations rs) {name : String} (hfind : s.table.find? name = some m)
    {shapes : List Shape} {run : Context → Json → σ → Outcome × σ}
    (hhandler : m.handler = .typed (.tuple shapes) run) (hnames : m.parameterNames ≠ [])
    {members : Members} {id? : Option Id} {v w : Json}
    (hkeyword : Call.ofJson v = .ok ⟨.v2, name, .named members, id?⟩)
    (hpositional : Call.ofJson w
      = .ok ⟨.v2, name, .positional (layOut m.parameterNames members), id?⟩)
    (authenticated : Bool) (st : σ) :
    (m.validate = false →
        (s.exchange authenticated v st).SameOutcome (s.exchange authenticated w st))
      ∧ ((∀ name ∈ m.parameterNames, ∃ u, members.lookup name = some u) →
        (s.exchange authenticated v st).SameOutcome (s.exchange authenticated w st)
          ∨ m.validate = true ∧ ¬ m.signature.Fits (.named members)
            ∧ ¬ m.signature.Fits (.positional (layOut m.parameterNames members))
            ∧ (s.exchange authenticated v st).TurnsDown ⟨.v2, name, .named members, id?⟩
            ∧ (s.exchange authenticated w st).TurnsDown
              ⟨.v2, name, .positional (layOut m.parameterNames members), id?⟩) := by
  have hsame : m.handler
        (m.context ⟨.v2, name, .positional (layOut m.parameterNames members), id?⟩ authenticated)
        (.positional (layOut m.parameterNames members))
      = m.handler (m.context ⟨.v2, name, .named members, id?⟩ authenticated) (.named members) := by
    rw [hhandler]
    exact (Handler.typed_tuple_named shapes run hnames members).symm
  constructor
  · intro hvalidate
    have hpasses : ∀ params, m.checkParams params = .ok () := fun params =>
      Method.checkParams_eq_ok_iff.mpr fun htrue => nomatch hvalidate.symm.trans htrue
    exact s.sameOutcome_of_carryOut hkeyword hpositional rfl rfl
      (s.carryOut_congr rfl hfind fun _ => ⟨hpasses _, hpasses _, hsame⟩) st
  · intro hall
    have hfits := Method.fits_layOut_iff (hs ▸ hfind) hall
    -- who is turned away is told the same both times, so only the check can tell the two apart
    by_cases hmisfit : s.Admits authenticated m → m.validate = true →
        m.signature.Fits (.named members)
    · refine Or.inl (s.sameOutcome_of_carryOut hkeyword hpositional rfl rfl
        (s.carryOut_congr rfl hfind fun hadmits => ⟨?_, ?_, hsame⟩) st)
      · exact Method.checkParams_eq_ok_iff.mpr (hmisfit hadmits)
      · exact Method.checkParams_eq_ok_iff.mpr fun hvalidate =>
          hfits.mpr (hmisfit hadmits hvalidate)
    · obtain ⟨hadmits, hrest⟩ := Classical.not_imp.mp hmisfit
      obtain ⟨hvalidate, hnamed⟩ := Classical.not_imp.mp hrest
      have hitems := hfits.not.mpr hnamed
      exact Or.inr ⟨hvalidate, hnamed, hitems,
        s.turnsDown_of_misfit hkeyword hfind hadmits hvalidate hnamed st,
        s.turnsDown_of_misfit hpositional hfind hadmits hvalidate hitems st⟩

end Service

/-- A checked method that joins two texts. -/
def joinRegistrations : List (Registration Nat) :=
  [⟨"join(a=str, b=str) -> str", Stock.joinTexts.handler, { validate := true }⟩]

/-- The service with this method. -/
def joinService : Service Nat where
  table := .ofRegistrations joinRegistrations

/-- The method that comes of the registration. -/
def joinMethod : Method Nat :=
  .make ⟨"join", some [⟨"a", .string⟩, ⟨"b", .string⟩], .string⟩ Stock.joinTexts.handler
    { validate := true }

/-- A request that joins two texts. -/
def joinRequest (params : Json) : Json :=
  .obj [("id", .num (.int 1)), ("jsonrpc", .str "2.0"), ("method", .str "join"), ("params", params)]

/-- Texts under their names, in another order than declared and beside another value, are joined as
    the texts in order are. -/
theorem texts_joined_by_keyword :
    joinService.table = .ofRegistrations joinRegistrations
      ∧ joinService.table.find? "join" = some joinMethod
      ∧ (∀ name ∈ joinMethod.parameterNames, ∃ u,
        [("b", Json.str "y"), ("z", .null), ("a", .str "x")].lookup name = some u)
      ∧ (joinService.exchange false
          (joinRequest (.obj [("b", .str "y"), ("z", .null), ("a", .str "x")])) 0).SameOutcome
        (joinService.exchange false (joinRequest (.arr [.str "x", .str "y"])) 0)
      ∧ (joinService.exchange false
          (joinRequest (.arr [.str "x", .str "y"])) 0).reply.response.result?
        = some (.str "xy") := by
  have hs : joinService.table = .ofRegistrations joinRegistrations := rfl
  have hfind : joinService.table.find? "join" = some joinMethod := rfl
  have hall : ∀ name ∈ joinMethod.parameterNames, ∃ u,
      [("b", Json.str "y"), ("z", .null), ("a", .str "x")].lookup name = some u :=
    List.forall_mem_cons.mpr ⟨⟨_, rfl⟩, List.forall_mem_singleton.mpr ⟨_, rfl⟩⟩
  obtain ⟨-, hdefined⟩ := joinService.keyword_calls_as_positional hs hfind rfl nofun
    (v := joinRequest (.obj [("b", .str "y"), ("z", .null), ("a", .str "x")]))
    (w := joinRequest (.arr [.str "x", .str "y"])) rfl rfl false 0
  have hfits : joinMethod.signature.Fits
      (.named [("b", .str "y"), ("z", .null), ("a", .str "x")]) :=
    (violation?_eq_none_iff rfl _).mp (by decide)
  exact ⟨hs, hfind, hall, (hdefined hall).resolve_right fun h => h.2.1 hfits, by decide +kernel⟩

end Switchboard
