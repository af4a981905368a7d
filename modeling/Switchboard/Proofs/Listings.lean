import Switchboard.Proofs.Authentication
import Switchboard.Proofs.Rendering
import Switchboard.Proofs.Tables

/-!
# What a listing tells

A table lists its methods, one entry for each of them in the order of their
names. Under suggested names that are identifiers an entry is faithful
(`Method.ListedBy`): it has the flags and the parameters of its method, and the
text of the signature is read back as that signature.

What an entry tells is what a method looks like (`Method.look`), and the methods
of a table look different, each having its own name. So whoever registers what
is listed, in whatever order and however often, gets a table in which there is a
method of each look, and no other one, and that is all a listing depends on
(`MethodTable.describe_eq_of_looks`).

A service that lists its methods does so under a name of its own, and a method
that is registered under that name stands in the way.
-/

namespace Switchboard

variable {σ τ : Type}

/-! ## Entries -/

/-- An item of an entry tells the name and the kind of a parameter. -/
def Parameter.ToldBy (p : Parameter) (item : Json) : Prop :=
  item.get? "name" = some (.str p.name) ∧ item.get? "kind" = some (.str p.kind.name)

/-- An entry of a listing tells the truth about a method. There is no list of parameters in it
    exactly if the method has none, and otherwise the list has them in their order; and the text of
    the signature is read as the signature of the method without any name being suggested. -/
structure Method.ListedBy (m : Method σ) (entry : Json) : Prop where
  name : entry.get? "name" = some (.str m.name)
  wildcard : entry.get? "params" = some .null ↔ m.signature.parameters? = none
  params : ∀ ps, m.signature.parameters? = some ps →
    ∃ items, entry.get? "params" = some (.arr items) ∧ List.Forall₂ Parameter.ToldBy ps items
  signature : ∃ text, entry.get? "signature" = some (.str text)
    ∧ Signature.parse text [] = .ok m.signature
  authenticated : entry.get? "authenticated" = some (.bool m.authenticated)
  safe : entry.get? "safe" = some (.bool m.safe)
  validate : entry.get? "validate" = some (.bool m.validate)

/-- The item of a parameter tells its name and kind. -/
theorem Parameter.toJson_toldBy (p : Parameter) : p.ToldBy p.toJson := by
  have hsorted : p.toJson = .obj [("kind", .str p.kind.name), ("name", .str p.name)] := by
    simp only [Parameter.toJson, Json.object, Members.ofList, Members.insert, List.foldl_cons,
      List.foldl_nil, String.reduceLT, String.reduceEq, reduceIte]
  rw [hsorted]
  exact ⟨rfl, rfl⟩

/-- An entry lists the parameters, or `null` if none are declared. -/
theorem Method.describe_params (m : Method σ) :
    m.describe.get? "params" = some (Json.ofOption
      (m.signature.parameters?.map fun ps => .arr (ps.map Parameter.toJson))) := by
  rw [Method.describe_eq]
  rfl

theorem Method.describe_signature (m : Method σ) :
    m.describe.get? "signature" = some (.str m.signature.render) := by
  rw [Method.describe_eq]
  rfl

theorem Method.describe_flags (m : Method σ) :
    m.describe.get? "authenticated" = some (.bool m.authenticated)
      ∧ m.describe.get? "safe" = some (.bool m.safe)
      ∧ m.describe.get? "validate" = some (.bool m.validate) := by
  rw [Method.describe_eq]
  exact ⟨rfl, rfl, rfl⟩

/-- The entry of a well named method is faithful. -/
theorem Method.listedBy_describe {m : Method σ} (h : m.signature.WellNamed) :
    m.ListedBy m.describe := by
  obtain ⟨hauthenticated, hsafe, hvalidate⟩ := m.describe_flags
  refine ⟨m.describe_name, ?_, ?_, ⟨_, m.describe_signature, Signature.parse_render h []⟩,
    hauthenticated, hsafe, hvalidate⟩
  · rw [m.describe_params]
    cases m.signature.parameters? with
    | none => exact iff_of_true rfl rfl
    | some ps => exact iff_of_false nofun nofun
  · intro ps hps
    refine ⟨ps.map Parameter.toJson, ?_, ?_⟩
    · rw [m.describe_params, hps]
      rfl
    · rw [List.forall₂_map_right_iff, List.forall₂_same]
      intro p _
      exact p.toJson_toldBy

/-! ## What methods look like -/

/-- What a listing tells of a method: its signature and its flags. -/
def Method.look (m : Method σ) : Signature × Bool × Bool × Bool :=
  (m.signature, m.authenticated, m.safe, m.validate)

theorem Method.describe_eq_of_look {m : Method σ} {n : Method τ} (h : m.look = n.look) :
    m.describe = n.describe := by
  obtain ⟨hsignature, hflags⟩ := Prod.mk.inj h
  obtain ⟨hauthenticated, hflags⟩ := Prod.mk.inj hflags
  obtain ⟨hsafe, hvalidate⟩ := Prod.mk.inj hflags
  rw [Method.describe, Method.describe, Method.name, Method.name, hsignature, hauthenticated, hsafe,
    hvalidate]

theorem Method.name_eq_of_look {m : Method σ} {n : Method τ} (h : m.look = n.look) :
    m.name = n.name :=
  congrArg (fun look => look.1.name) h

namespace MethodTable

/-- Tables in order in which the methods look alike are listed alike. -/
theorem describe_eq_of_looks {t : MethodTable σ} {u : MethodTable τ} (ht : t.Ordered)
    (hu : u.Ordered) (htu : ∀ m ∈ t.methods, ∃ n ∈ u.methods, m.look = n.look)
    (hut : ∀ n ∈ u.methods, ∃ m ∈ t.methods, m.look = n.look) : t.describe = u.describe := by
  -- looks in the order of their names are fixed by which looks there are
  have hordered {ρ : Type} {v : MethodTable ρ} (hv : v.Ordered) :
      (v.methods.map Method.look).Pairwise fun look look' => look.1.name < look'.1.name :=
    List.pairwise_map.mpr hv
  have hnodup {ρ : Type} {v : MethodTable ρ} (hv : v.Ordered) :
      (v.methods.map Method.look).Nodup := by
    refine (hordered hv).imp ?_
    rintro look _ hlt rfl
    exact hlt.false
  have hperm : (t.methods.map Method.look).Perm (u.methods.map Method.look) := by
    rw [List.perm_ext_iff_of_nodup (hnodup ht) (hnodup hu)]
    intro look
    rw [List.mem_map, List.mem_map]
    constructor
    · rintro ⟨m, hm, rfl⟩
      obtain ⟨n, hn, hsame⟩ := htu m hm
      exact ⟨n, hn, hsame.symm⟩
    · rintro ⟨n, hn, rfl⟩
      exact hut n hn
  have hlooks : t.methods.map Method.look = u.methods.map Method.look := by
    refine hperm.eq_of_pairwise ?_ (hordered ht) (hordered hu)
    intro look look' _ _ hlt hgt
    exact absurd hgt hlt.not_gt
  have hsame : List.Forall₂ (fun m n => m.look = n.look) t.methods u.methods := by
    rwa [← List.forall₂_eq_eq_eq, List.forall₂_map_left_iff, List.forall₂_map_right_iff] at hlooks
  have hentries :
      List.Forall₂ Eq (t.methods.map Method.describe) (u.methods.map Method.describe) := by
    rw [List.forall₂_map_left_iff, List.forall₂_map_right_iff]
    exact hsame.imp fun m n => Method.describe_eq_of_look
  exact congrArg Json.arr (List.forall₂_eq_eq_eq ▸ hentries)

end MethodTable

/-! ## Registering what is listed -/

/-- A registration asks for what an entry tells, with any handler and any suggested names. -/
structure Registration.Relists (q : Registration τ) (entry : Json) : Prop where
  text : entry.get? "signature" = some (.str q.text)
  authenticated : entry.get? "authenticated" = some (.bool q.terms.authenticated)
  safe : entry.get? "safe" = some (.bool q.terms.safe)
  validate : entry.get? "validate" = some (.bool q.terms.validate)

/-- The registration that asks for what the entry of a method tells. -/
def Method.relisting (m : Method σ) (handler : Handler τ) : Registration τ where
  text := m.signature.render
  handler := handler
  terms := ⟨m.authenticated, m.safe, m.validate, []⟩

/-- An entry can be asked for again. -/
theorem Method.relisting_relists (m : Method σ) (handler : Handler τ) :
    (m.relisting handler).Relists m.describe := by
  obtain ⟨hauthenticated, hsafe, hvalidate⟩ := m.describe_flags
  exact ⟨m.describe_signature, hauthenticated, hsafe, hvalidate⟩

namespace Registration.Relists

variable {q : Registration τ} {m : Method σ}

/-- What an entry asks for is read as the signature of its method. -/
theorem parse_eq (h : q.Relists m.describe) (hm : m.signature.WellNamed) :
    Signature.parse q.text q.terms.parameterNames = .ok m.signature := by
  have htext : m.signature.render = q.text :=
    Json.str.inj (Option.some.inj (m.describe_signature.symm.trans h.text))
  rw [← htext]
  exact Signature.parse_render hm _

/-- A method that is registered from an entry looks like the one that the entry is of. -/
theorem look_eq (h : q.Relists m.describe) (hm : m.signature.WellNamed) {n : Method τ}
    (hn : q.Adds n) : m.look = n.look := by
  obtain ⟨hauthenticated, hsafe, hvalidate⟩ := m.describe_flags
  have hflag : ∀ {b b' : Bool} {v? : Option Json}, v? = some (.bool b) → v? = some (.bool b') →
      b = b' := by
    rintro b b' _ rfl ⟨⟩
    rfl
  rw [Method.look, Method.look, hn.authenticated, hn.safe, hn.validate,
    Except.ok.inj ((h.parse_eq hm).symm.trans hn.signature), hflag hauthenticated h.authenticated,
    hflag hsafe h.safe, hflag hvalidate h.validate]

/-- An entry can be registered. -/
theorem exists_adds (h : q.Relists m.describe) (hm : m.signature.WellNamed) :
    ∃ n, q.Adds n :=
  ⟨Method.make m.signature q.handler q.terms, h.parse_eq hm, rfl, rfl, rfl, rfl, rfl⟩

end Registration.Relists

namespace MethodTable

variable {rs : List (Registration σ)}

/-- Every method of a table has been registered. -/
theorem adds_of_mem_methods {m : Method σ} (hm : m ∈ (ofRegistrations rs).methods) :
    ∃ r ∈ rs, r.Adds m := by
  obtain ⟨r, hr, hadds⟩ := exists_registration ((ordered_ofRegistrations rs).mem_iff.mp hm)
  exact ⟨r, hr, Registration.adds_iff.mpr hadds⟩

/-- Under suggested identifiers a table has well named methods only. -/
theorem wellNamed_of_mem_methods
    (hhints : ∀ r ∈ rs, ∀ hint ∈ r.terms.parameterNames, Signature.Ident hint.toList)
    {m : Method σ} (hm : m ∈ (ofRegistrations rs).methods) : m.signature.WellNamed := by
  obtain ⟨r, hr, hadds⟩ := adds_of_mem_methods hm
  exact Signature.wellNamed_of_parse (hhints r hr) hadds.signature

/-- A table holds one method of a name. -/
theorem eq_of_name_eq {t : MethodTable σ} (ht : t.Ordered) {m m' : Method σ} (hm : m ∈ t.methods)
    (hm' : m' ∈ t.methods) (hname : m.name = m'.name) : m = m' := by
  have hfind := ht.mem_iff.mp hm
  rw [hname] at hfind
  exact Option.some.inj (hfind.symm.trans (ht.mem_iff.mp hm'))

/-- Registering what is listed gives a table that is listed in the same way. -/
theorem describe_eq_of_relists
    (hhints : ∀ r ∈ rs, ∀ hint ∈ r.terms.parameterNames, Signature.Ident hint.toList)
    {qs : List (Registration τ)}
    (hall : ∀ m ∈ (ofRegistrations rs).methods, ∃ q ∈ qs, q.Relists m.describe)
    (honly : ∀ q ∈ qs, ∃ m ∈ (ofRegistrations rs).methods, q.Relists m.describe) :
    (ofRegistrations qs).describe = (ofRegistrations rs).describe := by
  have hnamed : ∀ m ∈ (ofRegistrations rs).methods, m.signature.WellNamed :=
    fun m hm => wellNamed_of_mem_methods hhints hm
  have hback : ∀ n ∈ (ofRegistrations qs).methods,
      ∃ m ∈ (ofRegistrations rs).methods, m.look = n.look := by
    intro n hn
    obtain ⟨q, hq, hadds⟩ := adds_of_mem_methods hn
    obtain ⟨m, hm, hrelists⟩ := honly q hq
    exact ⟨m, hm, hrelists.look_eq (hnamed m hm) hadds⟩
  refine (describe_eq_of_looks (ordered_ofRegistrations rs) (ordered_ofRegistrations qs) ?_
    hback).symm
  intro m hm
  obtain ⟨q, hq, hrelists⟩ := hall m hm
  obtain ⟨n, hadds⟩ := hrelists.exists_adds (hnamed m hm)
  -- a later registration may have replaced this one, but by a method that looks the same
  obtain ⟨n', hfind⟩ := Option.isSome_iff_exists.mp
    (isSome_find?_iff.mpr ⟨q, hq, n, hadds, rfl⟩)
  have hn' : n' ∈ (ofRegistrations qs).methods := List.mem_of_find?_eq_some hfind
  obtain ⟨m', hm', hlook⟩ := hback n' hn'
  have hname : m'.name = m.name :=
    calc m'.name = n'.name := Method.name_eq_of_look hlook
      _ = n.name := name_of_find? hfind
      _ = m.name := (Method.name_eq_of_look (hrelists.look_eq (hnamed m hm) hadds)).symm
  obtain rfl : m' = m := eq_of_name_eq (ordered_ofRegistrations rs) hm' hm hname
  exact ⟨n', hn', hlook⟩

end MethodTable

/-! ## Asking for the listing -/

/-- An exchange with a known caller serves a method: parameters that do not fit are refused and
    nothing happens, and otherwise the handler is called once and the reply is what comes of it. -/
structure Exchange.Serves (x : Exchange σ) (s : Service σ) (c : Call) (m : Method σ) : Prop where
  misfit : ∀ f, m.checkParams c.params = .error f →
    x.reply.response = s.respond c (.error f) ∧ x.after = x.before ∧ x.invocations = []
  called : m.checkParams c.params = .ok () →
    x.reply.response
        = s.respond c (m.conclude (m.handler (m.context c true) c.params x.before).1)
      ∧ x.after = (m.handler (m.context c true) c.params x.before).2
      ∧ x.invocations = [m.invocation (m.context c true) c.params x.before]

namespace Service

variable {s : Service σ} {v : Json} {c : Call}

/-- A known caller is served the method that is found. -/
theorem exchange_serves {m : Method σ} (hcall : Call.ofJson v = .ok c)
    (hfind : s.table.find? c.method = some m) (st : σ) :
    (s.exchange true v st).Serves s c m := by
  obtain ⟨r, st', called, hcarried, hx⟩ := s.exchange_of_call true hcall st
  rw [hx]
  rcases hcarried.of_found s true hfind with
    ⟨-, hanonymous, -⟩ | ⟨-, ⟨f, hmisfit, rfl, rfl, rfl⟩ | ⟨hfits, rfl, rfl, rfl⟩⟩
  · exact nomatch hanonymous
  · refine ⟨?_, fun hfits => nomatch hmisfit.symm.trans hfits⟩
    intro f' hmisfit'
    obtain rfl : f = f' := Except.error.inj (hmisfit.symm.trans hmisfit')
    exact ⟨rfl, rfl, rfl⟩
  · exact ⟨fun f hmisfit => (nomatch hfits.symm.trans hmisfit), fun _ => ⟨rfl, rfl, rfl⟩⟩

/-- A caller who asks for the listing gets it if no method is in the way, and nothing happens. -/
theorem exchange_lists {authenticated : Bool} (hcall : Call.ofJson v = .ok c)
    (hname : c.method = describeMethod) (hpolicy : s.policy.introspection = true)
    (hnone : s.table.find? describeMethod = none) (st : σ) :
    s.exchange authenticated v st
      = ⟨v, st, ⟨.success c.version s.table.describe c.responseId, c.isNotification⟩, st, []⟩ := by
  obtain ⟨r, st', called, hcarried, hx⟩ := s.exchange_of_call authenticated hcall st
  rw [hx]
  rw [← hname] at hnone
  cases hcarried with
  | listing => rfl
  | unknown _ hnot => exact absurd ⟨hpolicy, hname⟩ hnot
  | refused hfind => exact nomatch hnone.symm.trans hfind
  | misfit hfind => exact nomatch hnone.symm.trans hfind
  | invoked hfind => exact nomatch hnone.symm.trans hfind

end Service

/-- Listings are faithful. After any registrations under suggested identifiers a table is listed
    with one entry for each of its methods, and each of them, the last one registered under its
    name, is told of truly. What is listed can be registered again, and registering it in any order
    and any number of times gives a table with the same listing. And a known caller who asks a
    service that lists its methods for the listing gets just that, unless a method is registered
    under the name: then it is that method that is listed and served. -/
theorem MethodTable.listing_faithful {rs : List (Registration σ)}
    (hhints : ∀ r ∈ rs, ∀ hint ∈ r.terms.parameterNames, Signature.Ident hint.toList) :
    ∃ entries, (ofRegistrations rs).describe = .arr entries
      ∧ List.Forall₂ (fun m entry => LastUnder rs m.name m ∧ m.ListedBy entry)
        (ofRegistrations rs).methods entries
      ∧ (∀ τ : Type, ∃ qs : List (Registration τ), List.Forall₂ Registration.Relists qs entries)
      ∧ (∀ (τ : Type) (qs : List (Registration τ)),
        (∀ entry ∈ entries, ∃ q ∈ qs, q.Relists entry) →
        (∀ q ∈ qs, ∃ entry ∈ entries, q.Relists entry) →
          (ofRegistrations qs).describe = (ofRegistrations rs).describe)
      ∧ ∀ s : Service σ, s.table = ofRegistrations rs → s.policy.introspection = true →
        ∀ body st, ∀ x ∈ s.exchangesOf true body st, ∀ c, Call.ofJson x.envelope = .ok c →
        c.method = describeMethod →
          x.reply ∈ ((s.answer body true).value st).replies
          ∧ ((∀ r ∈ rs, ∀ m, r.Adds m → m.name ≠ describeMethod) →
            x.reply.response = .success c.version (.arr entries) c.responseId
              ∧ x.after = x.before ∧ x.invocations = [])
          ∧ ∀ m, LastUnder rs describeMethod m →
            (∃ entry ∈ entries, m.ListedBy entry) ∧ x.Serves s c m := by
  have hlisted : ∀ m ∈ (ofRegistrations rs).methods, m.ListedBy m.describe :=
    fun m hm => Method.listedBy_describe (wellNamed_of_mem_methods hhints hm)
  refine ⟨_, rfl, ?_, ?_, ?_, ?_⟩
  · rw [List.forall₂_map_right_iff, List.forall₂_same]
    intro m hm
    have hfind := (ordered_ofRegistrations rs).mem_iff.mp hm
    exact ⟨find?_eq_some_iff_lastUnder.mp hfind, hlisted m hm⟩
  · intro τ
    -- what a handler does has no part in an entry, so any will do
    let idle : Handler τ := fun _ _ st => (.value .null, st)
    refine ⟨(ofRegistrations rs).methods.map fun m => m.relisting idle, ?_⟩
    rw [List.forall₂_map_left_iff, List.forall₂_map_right_iff, List.forall₂_same]
    intro m _
    exact m.relisting_relists idle
  · intro τ qs hall honly
    refine describe_eq_of_relists hhints ?_ ?_
    · intro m hm
      exact hall m.describe (List.mem_map_of_mem hm)
    · intro q hq
      obtain ⟨_, hentry, hrelists⟩ := honly q hq
      obtain ⟨m, hm, rfl⟩ := List.mem_map.mp hentry
      exact ⟨m, hm, hrelists⟩
  · intro s htable hpolicy body st x hx c hcall hname
    have hreply := s.reply_mem_of_mem_exchangesOf true hx
    obtain ⟨v, -, st', rfl⟩ := s.exists_of_mem_exchanges true hx
    have hcall : Call.ofJson v = .ok c := hcall
    refine ⟨hreply, ?_, ?_⟩
    · intro hfree
      -- without a method of that name the call is for the service itself
      have hnone : s.table.find? describeMethod = none := by
        rw [htable]
        exact ((ofRegistrations_maps rs).missing describeMethod).mpr hfree
      rw [Service.exchange_lists hcall hname hpolicy hnone, htable]
      exact ⟨rfl, rfl, rfl⟩
    · intro m hlast
      have hfind : s.table.find? c.method = some m := by
        rw [htable, hname]
        exact find?_eq_some_iff_lastUnder.mpr hlast
      have hm : m ∈ (ofRegistrations rs).methods := by
        rw [htable] at hfind
        exact List.mem_of_find?_eq_some hfind
      exact ⟨⟨m.describe, List.mem_map_of_mem hm, hlisted m hm⟩,
        Service.exchange_serves hcall hfind st'⟩

/-- A method without parameters, a text that is no signature, and a method that is registered twice,
    the second time with a suggested name. -/
def guestRegistrations : List (Registration Nat) :=
  [⟨"greet", fun _ _ n => (.value .null, n), {}⟩,
    ⟨"ping()", fun _ _ n => (.value .null, n), { safe := true }⟩,
    ⟨"greet(", fun _ _ n => (.value .null, n), {}⟩,
    ⟨"greet(str)->nil", fun _ _ n => (.value .null, n + 1),
      { validate := true, parameterNames := ["whom"] }⟩]

/-- What is listed of them, the other way round and one of them twice. -/
def relistedGuests : List (Registration Unit) :=
  [⟨"ping() -> Any", fun _ _ st => (.value .null, st), { safe := true }⟩,
    ⟨"greet(whom=String) -> Nil", fun _ _ st => (.value .null, st), { validate := true }⟩,
    ⟨"ping() -> Any", fun _ _ st => (.value .null, st), { safe := true }⟩]

/-- A service that lists its methods. -/
def guestService (rs : List (Registration Nat)) : Service Nat where
  table := .ofRegistrations rs
  policy := { introspection := true }

/-- The same methods with one that counts under the name of the listing. -/
def shadowingRegistrations : List (Registration Nat) :=
  guestRegistrations ++ [⟨"system.describe", fun _ _ n => (.value (.ofInt n), n + 1), {}⟩]

/-- The guests are listed alike when they are registered from their listing, and their service shows
    the listing to who asks for it, unless it has a method to count with in its place. -/
theorem guests_listed :
    (∀ r ∈ guestRegistrations, ∀ hint ∈ r.terms.parameterNames, Signature.Ident hint.toList)
      ∧ (MethodTable.ofRegistrations guestRegistrations).names = ["greet", "ping"]
      ∧ (MethodTable.ofRegistrations relistedGuests).describe
        = (MethodTable.ofRegistrations guestRegistrations).describe
      ∧ (∀ st, ∀ x ∈
          (guestService guestRegistrations).exchangesOf true Service.describeRequest st,
        x.reply.response.result? = some (MethodTable.ofRegistrations guestRegistrations).describe
          ∧ x.after = x.before)
      ∧ (∀ r ∈ shadowingRegistrations, ∀ hint ∈ r.terms.parameterNames,
        Signature.Ident hint.toList)
      ∧ ∀ st, ∀ x ∈
          (guestService shadowingRegistrations).exchangesOf true Service.describeRequest st,
        x.reply.response.result? = some (.ofInt x.before) ∧ x.after = x.before + 1 := by
  have hident : Signature.Ident "whom".toList := Signature.isIdent_iff.mp (by decide)
  have hguests : ∀ r ∈ guestRegistrations, ∀ hint ∈ r.terms.parameterNames,
      Signature.Ident hint.toList := by
    simpa [guestRegistrations] using hident
  have hshadowing : ∀ r ∈ shadowingRegistrations, ∀ hint ∈ r.terms.parameterNames,
      Signature.Ident hint.toList := by
    simpa [shadowingRegistrations, guestRegistrations] using hident
  have hasked : ∀ (s : Service Nat) st, ∀ x ∈ s.exchangesOf true Service.describeRequest st,
      Call.ofJson x.envelope = .ok ⟨.v1, describeMethod, .positional [], none⟩ := by
    intro s st x hx
    rw [Service.exchangesOf, Service.decode_describeRequest] at hx
    obtain rfl := List.mem_singleton.mp hx
    rfl
  obtain ⟨entries, hentries, -, -, hrelisted, hserved⟩ := MethodTable.listing_faithful hguests
  have hlisting : (MethodTable.ofRegistrations guestRegistrations).describe = .arr
      [.obj [("authenticated", .bool false), ("name", .str "greet"),
          ("params", .arr [.obj [("kind", .str "String"), ("name", .str "whom")]]),
          ("returns", .str "Nil"), ("safe", .bool false),
          ("signature", .str "greet(whom=String) -> Nil"), ("validate", .bool true)],
        .obj [("authenticated", .bool false), ("name", .str "ping"), ("params", .arr []),
          ("returns", .str "Any"), ("safe", .bool true), ("signature", .str "ping() -> Any"),
          ("validate", .bool false)]] := by decide +kernel
  obtain rfl := Json.arr.inj (hentries.symm.trans hlisting)
  obtain ⟨_, -, -, -, -, hshadowed⟩ := MethodTable.listing_faithful hshadowing
  refine ⟨hguests, by decide +kernel, hrelisted Unit relistedGuests ?_ ?_, ?_, hshadowing, ?_⟩
  · intro entry hentry
    rcases List.mem_pair.mp hentry with rfl | rfl
    · exact ⟨_, List.mem_cons_of_mem _ List.mem_cons_self, rfl, rfl, rfl, rfl⟩
    · exact ⟨_, List.mem_cons_self, rfl, rfl, rfl, rfl⟩
  · intro q hq
    simp only [relistedGuests, List.mem_cons, List.not_mem_nil, or_false] at hq
    rcases hq with rfl | rfl | rfl
    · exact ⟨_, List.mem_pair.mpr (Or.inr rfl), rfl, rfl, rfl, rfl⟩
    · exact ⟨_, List.mem_pair.mpr (Or.inl rfl), rfl, rfl, rfl, rfl⟩
    · exact ⟨_, List.mem_pair.mpr (Or.inr rfl), rfl, rfl, rfl, rfl⟩
  · intro st x hx
    obtain ⟨-, hlisting, -⟩ := hserved (guestService guestRegistrations) rfl rfl _ st x hx _
      (hasked _ st x hx) rfl
    have hfree := ((MethodTable.ofRegistrations_maps guestRegistrations).missing
      describeMethod).mp rfl
    obtain ⟨hresponse, hafter, -⟩ := hlisting hfree
    rw [hresponse, hentries]
    exact ⟨rfl, hafter⟩
  · intro st x hx
    obtain ⟨-, -, hserves⟩ := hshadowed (guestService shadowingRegistrations) rfl rfl _ st x hx _
      (hasked _ st x hx) rfl
    have hlast := MethodTable.find?_eq_some_iff_lastUnder.mp
      (show (MethodTable.ofRegistrations shadowingRegistrations).find? describeMethod
        = some (.make (.wildcard "system.describe")
          (fun _ _ n => (.value (.ofInt (Int.ofNat n)), n + 1)) {}) from rfl)
    obtain ⟨-, hserves⟩ := hserves _ hlast
    obtain ⟨hresponse, hafter, -⟩ := hserves.called rfl
    rw [hresponse]
    exact ⟨rfl, hafter⟩

end Switchboard
