import Mathlib.Data.List.DropRight
import Switchboard.Proofs.Tables
import Switchboard.Server.Draft

/-!
# Drafts of tables and servers

Whoever puts a table or a server together registers methods and hears of a
failure only in the end. It is the failure of the first registration that
fails (`FirstFault`), and it comes before all other complaints, whatever else
has been done in between.

A server is put together in steps of many sorts, in any order. Some of them set
something as a whole, so that the last one counts, and others add to what has
been set before. `ServerDraft.SinceLast` splits steps behind the last one that
sets something, and what a server ends up with is what that step has set with
what the steps after it have added (`ServerDraft.Yields`).
-/

namespace Switchboard

variable {σ : Type}

/-! ## Registrations that fail -/

/-- The text of a registration is no signature, and this is the fault that says so. -/
def Registration.FailsWith (r : Registration σ) (f : Fault) : Prop :=
  ∃ d, Signature.parse r.text r.terms.parameterNames = .error d
    ∧ f = .invalidSignature r.text d.message

/-- Of some registrations the first one that fails does so with this fault. -/
def FirstFault (rs : List (Registration σ)) (f : Fault) : Prop :=
  ∃ earlier r later, rs = earlier ++ r :: later ∧ (∀ q ∈ earlier, ∃ m, q.Adds m) ∧ r.FailsWith f

namespace Registration

variable {r : Registration σ} {rs : List (Registration σ)}

/-- The fault of a registration, if it fails. -/
def fault? (r : Registration σ) : Option Fault :=
  match Signature.parse r.text r.terms.parameterNames with
  | .ok _ => none
  | .error d => some (.invalidSignature r.text d.message)

/-- The fault of a registration is the one that its text fails with. -/
theorem fault?_eq_some_iff {f : Fault} : r.fault? = some f ↔ r.FailsWith f := by
  unfold fault? FailsWith
  cases Signature.parse r.text r.terms.parameterNames with
  | ok sig => exact ⟨nofun, fun ⟨_, hnone, _⟩ => nomatch hnone⟩
  | error d =>
      constructor
      · intro h
        exact ⟨d, rfl, (Option.some.inj h).symm⟩
      · rintro ⟨_, ⟨⟩, rfl⟩
        rfl

/-- A registration without a fault adds a method. -/
theorem fault?_eq_none_iff : r.fault? = none ↔ ∃ m, r.Adds m := by
  unfold fault?
  cases hsig : Signature.parse r.text r.terms.parameterNames with
  | ok sig =>
      exact iff_of_true rfl ⟨Method.make sig r.handler r.terms, hsig, rfl, rfl, rfl, rfl, rfl⟩
  | error d =>
      refine iff_of_false nofun ?_
      rintro ⟨m, hm⟩
      exact nomatch hsig.symm.trans hm.signature

theorem firstFault_iff {f : Fault} : FirstFault rs f ↔ rs.findSome? fault? = some f := by
  rw [List.findSome?_eq_some_iff]
  simp only [fault?_eq_some_iff, fault?_eq_none_iff]
  constructor
  · rintro ⟨earlier, r, later, hsplit, hearlier, hfails⟩
    exact ⟨earlier, r, later, hsplit, hfails, hearlier⟩
  · rintro ⟨earlier, r, later, hsplit, hfails, hearlier⟩
    exact ⟨earlier, r, later, hsplit, hearlier, hfails⟩

theorem findSome?_fault?_eq_none_iff :
    rs.findSome? fault? = none ↔ ∀ r ∈ rs, ∃ m, r.Adds m := by
  simp only [List.findSome?_eq_none_iff, fault?_eq_none_iff]

/-- Where a registration fails, there is one that fails first. -/
theorem exists_firstFault_iff : (∃ f, FirstFault rs f) ↔ ∃ r ∈ rs, ∃ f, r.FailsWith f := by
  simp only [firstFault_iff, ← fault?_eq_some_iff, ← Option.isSome_iff_exists,
    List.findSome?_isSome_iff]

end Registration

namespace MethodTable

variable (t : MethodTable σ) {r : Registration σ}

theorem register_of_fault {f : Fault} (h : r.fault? = some f) :
    t.register r.text r.handler r.terms = .error f := by
  obtain ⟨d, hd, rfl⟩ := Registration.fault?_eq_some_iff.mp h
  rw [register, methodOf, hd]
  rfl

theorem register_of_no_fault (h : r.fault? = none) :
    ∃ j, t.register r.text r.handler r.terms = .ok (t.registered r, j) := by
  rcases t.register_cases r with ⟨d, hd, -⟩ | ⟨m, -, hregister, -⟩
  · obtain ⟨m, hm⟩ := Registration.fault?_eq_none_iff.mp h
    exact nomatch hd.symm.trans hm.signature
  · exact hregister

end MethodTable

/-! ## Tables -/

namespace Draft

variable {rs : List (Registration σ)} {d : Draft σ} {r : Registration σ}

theorem ofList_append_singleton (rs : List (Registration σ)) (r : Registration σ) :
    ofList (rs ++ [r]) = (ofList rs).method r := by
  simp [ofList]

theorem fault?_method : (d.method r).fault? = d.fault?.or r.fault? := by
  unfold method
  cases hd : d.fault? with
  | some f => exact hd
  | none =>
      cases hr : r.fault? with
      | some f =>
          rw [d.table.register_of_fault hr]
          rfl
      | none =>
          obtain ⟨j, hj⟩ := d.table.register_of_no_fault hr
          rw [hj]
          rfl

theorem table_method (hd : d.fault? = none) : (d.method r).table = d.table.registered r := by
  rw [method, hd, MethodTable.registered]
  cases d.table.register r.text r.handler r.terms with
  | ok tj => rfl
  | error f => rfl

/-- A draft remembers the first fault. -/
theorem fault?_ofList (rs : List (Registration σ)) :
    (ofList rs).fault? = rs.findSome? Registration.fault? := by
  induction rs using List.reverseRecOn with
  | nil => rfl
  | append_singleton rs r ih =>
      rw [ofList_append_singleton, fault?_method, ih, List.findSome?_append]
      cases hr : r.fault? <;> simp [hr]

/-- As long as nothing fails, the table is the one of the registrations. -/
theorem table_ofList (h : (ofList rs).fault? = none) :
    (ofList rs).table = MethodTable.ofRegistrations rs := by
  induction rs using List.reverseRecOn with
  | nil => rfl
  | append_singleton rs r ih =>
      rw [ofList_append_singleton, fault?_method, Option.or_eq_none_iff] at h
      rw [ofList_append_singleton, table_method h.1, ih h.1,
        MethodTable.ofRegistrations_append_singleton]

/-- A draft fails exactly with the fault that comes first. -/
theorem build_eq_error_iff {f : Fault} : (ofList rs).build = .error f ↔ FirstFault rs f := by
  rw [Registration.firstFault_iff, ← fault?_ofList, build]
  cases (ofList rs).fault? with
  | none => exact ⟨nofun, nofun⟩
  | some f' => simp

/-- A draft comes to a table exactly if every registration adds a method, and to the table of the
    registrations. -/
theorem build_eq_ok_iff {t : MethodTable σ} :
    (ofList rs).build = .ok t
      ↔ (∀ r ∈ rs, ∃ m, r.Adds m) ∧ t = MethodTable.ofRegistrations rs := by
  rw [← Registration.findSome?_fault?_eq_none_iff, ← fault?_ofList, build]
  cases hfault : (ofList rs).fault? with
  | some f => exact ⟨nofun, nofun⟩
  | none =>
      rw [table_ofList hfault]
      simp [eq_comm]

end Draft

/-! ## Steps of a server -/

namespace ServerDraft

/-- The address that a step sets. -/
def Step.address? : Step σ → Option SocketAddress
  | .bind a => some a
  | _ => none

/-- The registration that a step carries out. -/
def Step.registration? : Step σ → Option (Registration σ)
  | .method r => some r
  | _ => none

/-- The methods that a step sets. -/
def Step.table? : Step σ → Option (MethodTable σ)
  | .table t => some t
  | _ => none

/-- The rules that a step sets. -/
def Step.policy? : Step σ → Option Policy
  | .policy p => some p
  | _ => none

/-- What a step sets to decide whether a caller is known. -/
def Step.authenticator? : Step σ → Option Authenticator
  | .authenticator a => some a
  | _ => none

/-- The settings for watching that a step sets. -/
def Step.watching? : Step σ → Option WatchSettings
  | .watching o => some o
  | _ => none

/-- The registrations among some steps. -/
def registrations (steps : List (Step σ)) : List (Registration σ) :=
  steps.filterMap Step.registration?

/-- The last step that sets something sets `base`, and `after` are the steps after it. If no step
    sets it, `base` is the default and `after` are all steps. -/
inductive SinceLast {α : Type} (sets : Step σ → Option α) (default : α) :
    List (Step σ) → α → List (Step σ) → Prop where
  | never {steps : List (Step σ)} (h : ∀ s ∈ steps, sets s = none) :
      SinceLast sets default steps default steps
  | last (before : List (Step σ)) {s : Step σ} {base : α} {after : List (Step σ)}
      (hs : sets s = some base) (h : ∀ s ∈ after, sets s = none) :
      SinceLast sets default (before ++ s :: after) base after

/-- The rules after some steps: each of them holds if it held before or a step switches it on. -/
structure SwitchedOn (base : Policy) (after : List (Step σ)) (p : Policy) : Prop where
  requireAuthentication : p.requireAuthentication = true
    ↔ base.requireAuthentication = true ∨ .requireAuthentication ∈ after
  redactInternal : p.redactInternal = true
    ↔ base.redactInternal = true ∨ .redactInternal ∈ after
  introspection : p.introspection = true
    ↔ base.introspection = true ∨ .introspection ∈ after

/-- What a server that is put together in steps has: the methods that were set last, extended by
    those that were registered after them, the rules that were set last with those that were
    switched on after them, and what was set last to decide whether a caller is known. -/
structure Yields (steps : List (Step σ)) (s : Server σ) : Prop where
  table : ∃ base after, SinceLast Step.table? ∅ steps base after
    ∧ s.service.table = (registrations after).foldl MethodTable.registered base
  policy : ∃ base after, SinceLast Step.policy? {} steps base after
    ∧ SwitchedOn base after s.service.policy
  authenticator : s.authenticator? = (steps.filterMap Step.authenticator?).getLast?

variable {α : Type} {steps : List (Step σ)}

theorem ofSteps_append_singleton (steps : List (Step σ)) (s : Step σ) :
    ofSteps (steps ++ [s]) = ((ofSteps steps).step s).1 := by
  simp [ofSteps]

theorem registrations_append (steps steps' : List (Step σ)) :
    registrations (steps ++ steps') = registrations steps ++ registrations steps' :=
  List.filterMap_append

/-! ### One step -/

/-- A registration does to a server what it does to a draft of its table. -/
theorem method_eq (d : ServerDraft σ) (r : Registration σ) :
    (d.method r).1 = { d with
      table := (Draft.method ⟨d.table, d.fault?, []⟩ r).table
      fault? := (Draft.method ⟨d.table, d.fault?, []⟩ r).fault? } := by
  obtain ⟨address?, table, fault?, policy, authenticator?, watching?, serviceName?⟩ := d
  unfold method Draft.method
  cases fault? with
  | some f => rfl
  | none => cases table.register r.text r.handler r.terms <;> rfl

/-- All that a step does to a server that is being put together: what it sets takes the place of
    what was there, the first failure stays, and a registration adds to the table as long as
    nothing has failed. -/
structure Stepped (d : ServerDraft σ) (s : Step σ) (d' : ServerDraft σ) : Prop where
  address : d'.address? = s.address?.or d.address?
  authenticator : d'.authenticator? = s.authenticator?.or d.authenticator?
  watching : d'.watching? = s.watching?.or d.watching?
  fault : d'.fault? = d.fault?.or (s.registration?.bind Registration.fault?)
  table : d.fault? = none →
    d'.table = s.table?.getD (s.registration?.elim d.table d.table.registered)
  policySet : ∀ p, s.policy? = some p → d'.policy = p
  policyKept : s.policy? = none → SwitchedOn d.policy [s] d'.policy

theorem stepped (d : ServerDraft σ) (s : Step σ) : Stepped d s (d.step s).1 := by
  have hnone : d.fault? = d.fault?.or none := Option.or_none.symm
  cases s with
  | method r =>
      rw [step, method_eq]
      refine ⟨rfl, rfl, rfl, Draft.fault?_method, fun hd => Draft.table_method hd, nofun, ?_⟩
      intro _
      constructor <;> simp
  | bind | table | authenticator | watching | serviceName =>
      refine ⟨rfl, rfl, rfl, hnone, fun _ => rfl, nofun, ?_⟩
      intro _
      constructor <;> simp [step]
  | policy p =>
      refine ⟨rfl, rfl, rfl, hnone, fun _ => rfl, ?_, nofun⟩
      rintro _ ⟨⟩
      rfl
  | requireAuthentication | redactInternal | introspection =>
      refine ⟨rfl, rfl, rfl, hnone, fun _ => rfl, nofun, ?_⟩
      intro _
      constructor <;> simp [step, amend]

/-! ### Runs of steps -/

/-- A step that sets nothing is one more after the last that does. -/
theorem SinceLast.append_singleton {sets : Step σ → Option α} {default base : α}
    {after : List (Step σ)} {s : Step σ} (h : SinceLast sets default steps base after)
    (hs : sets s = none) : SinceLast sets default (steps ++ [s]) base (after ++ [s]) := by
  have hlater : ∀ {l : List (Step σ)}, (∀ s ∈ l, sets s = none) → ∀ s' ∈ l ++ [s], sets s' = none :=
    fun hl => List.forall_mem_append.mpr ⟨hl, List.forall_mem_singleton.mpr hs⟩
  cases h with
  | never h => exact .never (hlater h)
  | last before hset h =>
      rw [List.append_assoc, List.cons_append]
      exact .last before hset (hlater h)

/-- There is only one way to tell what was set last and what came after it. -/
theorem SinceLast.unique {sets : Step σ → Option α} {default base base' : α}
    {after after' : List (Step σ)} (h : SinceLast sets default steps base after)
    (h' : SinceLast sets default steps base' after') : base = base' ∧ after = after' := by
  -- the steps alone tell the last value that is set and the longest rest that sets nothing
  have hsplit : ∀ {base after}, SinceLast sets default steps base after →
      base = ((steps.filterMap sets).getLast?).getD default
        ∧ after = steps.rtakeWhile fun s => (sets s).isNone := by
    intro base after h
    cases h with
    | never hafter =>
        rw [List.filterMap_eq_nil_iff.mpr hafter,
          List.rtakeWhile_eq_self_iff.mpr (by simpa using hafter)]
        exact ⟨rfl, rfl⟩
    | @last before s _ _ hs hafter =>
        have hnone : ∀ s ∈ after.reverse, (sets s).isNone = true := by simpa using hafter
        rw [List.filterMap_append, List.filterMap_cons_some hs,
          List.filterMap_eq_nil_iff.mpr hafter, List.getLast?_concat, List.rtakeWhile,
          List.reverse_append, List.reverse_cons, List.append_assoc,
          List.takeWhile_append_of_pos hnone]
        simp [hs]
  exact ⟨(hsplit h).1.trans (hsplit h').1.symm, (hsplit h).2.trans (hsplit h').2.symm⟩

/-- What is set as a whole and added to bit by bit is what was set last with what has been added
    since. -/
theorem exists_sinceLast (get : ServerDraft σ → α) (sets : Step σ → Option α)
    (Made : α → List (Step σ) → α → Prop) (hmade : ∀ base, Made base [] base)
    (hset : ∀ front s, front ++ [s] <+: steps → ∀ a, sets s = some a →
      get (ofSteps (front ++ [s])) = a)
    (hkept : ∀ front s, front ++ [s] <+: steps → sets s = none → ∀ base after,
      Made base after (get (ofSteps front)) →
        Made base (after ++ [s]) (get (ofSteps (front ++ [s])))) :
    ∃ base after, SinceLast sets (get {}) steps base after
      ∧ Made base after (get (ofSteps steps)) := by
  induction steps using List.reverseRecOn with
  | nil => exact ⟨get {}, [], .never (List.forall_mem_nil _), hmade _⟩
  | append_singleton steps s ih =>
      have hfront : ∀ {l : List (Step σ)}, l <+: steps → l <+: steps ++ [s] :=
        fun hl => hl.trans (List.prefix_append _ _)
      obtain ⟨base, after, hsince, hbase⟩ := ih (fun front s' h => hset front s' (hfront h))
        (fun front s' h => hkept front s' (hfront h))
      cases hs : sets s with
      | some a =>
          -- what was there before does not matter any more
          refine ⟨a, [], .last steps hs (List.forall_mem_nil _), ?_⟩
          rw [hset steps s (List.prefix_refl _) a hs]
          exact hmade a
      | none =>
          exact ⟨base, after ++ [s], hsince.append_singleton hs,
            hkept steps s (List.prefix_refl _) hs base after hbase⟩

/-- What is only set as a whole is what was set last. -/
theorem eq_getLast? (get : ServerDraft σ → Option α) (sets : Step σ → Option α)
    (hnone : get {} = none) (hset : ∀ d s, get (d.step s).1 = (sets s).or (get d))
    (steps : List (Step σ)) : get (ofSteps steps) = (steps.filterMap sets).getLast? := by
  induction steps using List.reverseRecOn with
  | nil => exact hnone
  | append_singleton steps s ih =>
      rw [ofSteps_append_singleton, hset, ih, List.filterMap_append]
      cases hs : sets s <;> simp [hs]

/-- The failure that is remembered is the first one, whatever has become of the table. -/
theorem fault?_ofSteps (steps : List (Step σ)) :
    (ofSteps steps).fault? = (registrations steps).findSome? Registration.fault? := by
  induction steps using List.reverseRecOn with
  | nil => rfl
  | append_singleton steps s ih =>
      rw [ofSteps_append_singleton, (stepped _ s).fault, ih, registrations_append,
        List.findSome?_append]
      cases hs : s.registration? with
      | none => simp [registrations, hs]
      | some r => cases hr : r.fault? <;> simp [registrations, hs, hr]

/-- What has not failed had not failed before. -/
theorem fault?_eq_none_of_prefix {front : List (Step σ)} (hfront : front <+: steps)
    (h : (ofSteps steps).fault? = none) : (ofSteps front).fault? = none := by
  obtain ⟨back, rfl⟩ := hfront
  rw [fault?_ofSteps, registrations_append, List.findSome?_append, Option.or_eq_none_iff] at h
  rw [fault?_ofSteps]
  exact h.1

/-- As long as nothing fails, the table is the one that was set last, extended by what has been
    registered since. -/
theorem table_ofSteps (h : (ofSteps steps).fault? = none) :
    ∃ base after, SinceLast Step.table? ∅ steps base after
      ∧ (ofSteps steps).table = (registrations after).foldl MethodTable.registered base := by
  -- after a failure registrations are passed over, so no part of the run may have failed
  refine exists_sinceLast table Step.table?
    (fun base after t => t = (registrations after).foldl MethodTable.registered base)
    (fun _ => rfl) ?_ ?_
  · intro front s hprefix t hs
    have hfront := fault?_eq_none_of_prefix ((List.prefix_append front [s]).trans hprefix) h
    rw [ofSteps_append_singleton, (stepped _ s).table hfront, hs]
    rfl
  · intro front s hprefix hs base after hbase
    have hfront := fault?_eq_none_of_prefix ((List.prefix_append front [s]).trans hprefix) h
    rw [ofSteps_append_singleton, (stepped _ s).table hfront, hs, registrations_append,
      List.foldl_append, ← hbase]
    cases hr : s.registration? <;> simp [registrations, hr]

theorem SwitchedOn.append_singleton {base p p' : Policy} {after : List (Step σ)} {s : Step σ}
    (h : SwitchedOn base after p) (hs : SwitchedOn p [s] p') :
    SwitchedOn base (after ++ [s]) p' := by
  refine ⟨?_, ?_, ?_⟩
  · rw [hs.requireAuthentication, h.requireAuthentication, List.mem_append, or_assoc]
  · rw [hs.redactInternal, h.redactInternal, List.mem_append, or_assoc]
  · rw [hs.introspection, h.introspection, List.mem_append, or_assoc]

/-- The rules are the ones that were set last with what has been switched on since. -/
theorem policy_ofSteps (steps : List (Step σ)) :
    ∃ base after, SinceLast Step.policy? {} steps base after
      ∧ SwitchedOn base after (ofSteps steps).policy := by
  refine exists_sinceLast policy Step.policy? SwitchedOn ?_ ?_ ?_
  · intro base
    constructor <;> simp
  · intro front s _ p hs
    rw [ofSteps_append_singleton]
    exact (stepped _ s).policySet p hs
  · intro front s _ hs base after hbase
    rw [ofSteps_append_singleton]
    exact hbase.append_singleton ((stepped _ s).policyKept hs)

/-- The address is the one that was asked for last. -/
theorem address?_ofSteps (steps : List (Step σ)) :
    (ofSteps steps).address? = (steps.filterMap Step.address?).getLast? :=
  eq_getLast? address? Step.address? rfl (fun d s => (stepped d s).address) steps

/-- As long as nothing fails, there is what the steps yield. -/
theorem yields_ofSteps (h : (ofSteps steps).fault? = none) (address : SocketAddress) :
    Yields steps ⟨address, (ofSteps steps).service, (ofSteps steps).authenticator?⟩ :=
  ⟨table_ofSteps h, policy_ofSteps steps,
    eq_getLast? authenticator? Step.authenticator? rfl (fun d s => (stepped d s).authenticator)
      steps⟩

/-- Without a step that asks for it nothing is watched. -/
theorem watch_ofSteps (h : ∀ o, Step.watching o ∉ steps) (w : Watch) :
    (ofSteps steps).watch w = .ok w := by
  have hnone : (ofSteps steps).watching? = none := by
    rw [eq_getLast? watching? Step.watching? rfl (fun d s => (stepped d s).watching) steps,
      List.getLast?_eq_none_iff, List.filterMap_eq_nil_iff]
    intro s hs
    cases s with
    | watching o => exact absurd hs (h o)
    | _ => rfl
  rw [watch, settings?, hnone]
  rfl

/-! ### Building -/

section

variable {d : ServerDraft σ} {n n' : Network} {w w' : Watch} {a b : SocketAddress}

theorem build_of_fault {f : Fault} (h : d.fault? = some f) : d.build n w = .error f := by
  rw [build, requestedAddress, h]
  rfl

theorem build_of_no_address (hfault : d.fault? = none) (haddress : d.address? = none) :
    d.build n w = .error (.usage "No bind address specified") := by
  rw [build, requestedAddress, hfault, haddress]
  rfl

/-- With an address that can be bound the server has what has been put together. -/
theorem build_of_bound (hfault : d.fault? = none) (haddress : d.address? = some a)
    (hbind : n.bind a = .ok (b, n')) (hwatch : d.watch w = .ok w') :
    d.build n w
      = .ok (⟨b, d.service, d.authenticator?⟩, n', w'.record (d.listening a)) := by
  rw [build, requestedAddress, hfault, haddress]
  show (n.bind a >>= _) = _
  rw [hbind]
  show (d.watch w >>= _) = _
  rw [hwatch]
  rfl

end

end ServerDraft

/-- Drafts come to what plain registration comes to. The draft of a table fails exactly if a
    registration fails, with the fault of the first one that does, and otherwise it is the table of
    the registrations. A server that is put together fails with the fault of the first registration
    that fails as well, whatever the other steps are; otherwise it fails if it has no address, and
    if it has one that can be bound it has what its steps yield. -/
theorem drafts_refine_registration :
    (∀ rs : List (Registration σ),
      (∀ f, (Draft.ofList rs).build = .error f ↔ FirstFault rs f)
        ∧ ((∃ f, (Draft.ofList rs).build = .error f) ↔ ∃ r ∈ rs, ∃ f, r.FailsWith f)
        ∧ ∀ t, (Draft.ofList rs).build = .ok t
          ↔ (∀ r ∈ rs, ∃ m, r.Adds m) ∧ t = MethodTable.ofRegistrations rs)
      ∧ ∀ (steps : List (ServerDraft.Step σ)) (n : Network) (w : Watch),
        (∀ f, FirstFault (ServerDraft.registrations steps) f →
          (ServerDraft.ofSteps steps).build n w = .error f)
        ∧ ((∃ r ∈ ServerDraft.registrations steps, ∃ f, r.FailsWith f) →
          ∃ f, FirstFault (ServerDraft.registrations steps) f)
        ∧ ((∀ r ∈ ServerDraft.registrations steps, ∃ m, r.Adds m) →
          ((∀ a, .bind a ∉ steps) →
            (ServerDraft.ofSteps steps).build n w = .error (.usage "No bind address specified"))
          ∧ ∀ a b n' w', (steps.filterMap ServerDraft.Step.address?).getLast? = some a →
            n.bind a = .ok (b, n') → (ServerDraft.ofSteps steps).watch w = .ok w' →
              ∃ s, (ServerDraft.ofSteps steps).build n w
                  = .ok (s, n', w'.record ((ServerDraft.ofSteps steps).listening a))
                ∧ s.address = b ∧ ServerDraft.Yields steps s)
        ∧ ((∀ o, .watching o ∉ steps) → (ServerDraft.ofSteps steps).watch w = .ok w) := by
  constructor
  · intro rs
    refine ⟨fun f => Draft.build_eq_error_iff, ?_, fun t => Draft.build_eq_ok_iff⟩
    simp only [Draft.build_eq_error_iff]
    exact Registration.exists_firstFault_iff
  · intro steps n w
    refine ⟨?_, Registration.exists_firstFault_iff.mpr, ?_,
      fun h => ServerDraft.watch_ofSteps h w⟩
    · intro f hfirst
      refine ServerDraft.build_of_fault ?_
      rw [ServerDraft.fault?_ofSteps]
      exact Registration.firstFault_iff.mp hfirst
    · -- without a fault it only depends on the address whether there is a server
      intro hreads
      have hfault : (ServerDraft.ofSteps steps).fault? = none := by
        rw [ServerDraft.fault?_ofSteps]
        exact Registration.findSome?_fault?_eq_none_iff.mpr hreads
      constructor
      · intro hnever
        refine ServerDraft.build_of_no_address hfault ?_
        rw [ServerDraft.address?_ofSteps, List.getLast?_eq_none_iff, List.filterMap_eq_nil_iff]
        intro s hs
        cases s with
        | bind a => exact absurd hs (hnever a)
        | _ => rfl
      · intro a b n' w' hlast hbind hwatch
        have haddress := (ServerDraft.address?_ofSteps steps).trans hlast
        exact ⟨_, ServerDraft.build_of_bound hfault haddress hbind hwatch, rfl,
          ServerDraft.yields_ofSteps hfault b⟩

/-- A handler that counts its calls. -/
def tally : Handler Nat := fun _ _ n => (.value .null, n + 1)

/-- Steps in which a registration fails, and another one after all methods have been replaced. -/
def replacedTooLate : List (ServerDraft.Step Nat) :=
  [.method ⟨"add(", tally, {}⟩, .table ∅, .method ⟨"sub(n", tally, {}⟩]

/-- Steps in which methods and rules are replaced in between. -/
def layeredSteps : List (ServerDraft.Step Nat) :=
  [.introspection, .method ⟨"lost", tally, {}⟩, .bind ⟨.v4 127 0 0 1, 80⟩,
    .table (.ofRegistrations [⟨"given", tally, {}⟩]), .requireAuthentication,
    .policy { redactInternal := true }, .method ⟨"kept()", tally, {}⟩, .requireAuthentication]

/-- The first failure is reported although the methods have been replaced and there is no address.
    Of the layers only what came after the last replacement is served. -/
theorem layers_served :
    FirstFault (ServerDraft.registrations replacedTooLate)
        (.invalidSignature "add(" "unclosed parameter list")
      ∧ (ServerDraft.ofSteps replacedTooLate).build {} {}
        = .error (.invalidSignature "add(" "unclosed parameter list")
      ∧ ∃ s n w, (ServerDraft.ofSteps layeredSteps).build {} {} = .ok (s, n, w)
        ∧ s.address = ⟨.v4 127 0 0 1, 80⟩ ∧ s.service.table.names = ["given", "kept"]
        ∧ s.service.policy = { requireAuthentication := true, redactInternal := true } := by
  have hfirst : FirstFault (ServerDraft.registrations replacedTooLate)
      (.invalidSignature "add(" "unclosed parameter list") :=
    Registration.firstFault_iff.mpr (by decide +kernel)
  obtain ⟨-, hservers⟩ := @drafts_refine_registration Nat
  obtain ⟨hfails, -⟩ := hservers replacedTooLate {} {}
  obtain ⟨-, -, hbuilds, hwatch⟩ := hservers layeredSteps {} {}
  have hreads : ∀ r ∈ ServerDraft.registrations layeredSteps, ∃ m, r.Adds m :=
    Registration.findSome?_fault?_eq_none_iff.mp (by decide +kernel)
  have hunwatched : ∀ o, ServerDraft.Step.watching o ∉ layeredSteps := by
    intro o
    simp [layeredSteps]
  obtain ⟨s, hbuild, haddress, hyields⟩ :=
    (hbuilds hreads).2 _ _ _ _ rfl rfl (hwatch hunwatched)
  refine ⟨hfirst, hfails _ hfirst, s, _, _, hbuild, haddress, ?_, ?_⟩
  · obtain ⟨base, after, hsince, htable⟩ := hyields.table
    have hlast : ServerDraft.SinceLast ServerDraft.Step.table? ∅ layeredSteps _ _ :=
      .last (layeredSteps.take 3) rfl (by simp [ServerDraft.Step.table?])
    obtain ⟨rfl, rfl⟩ := hsince.unique hlast
    rw [htable]
    decide +kernel
  · obtain ⟨base, after, hsince, hswitched⟩ := hyields.policy
    have hlast : ServerDraft.SinceLast ServerDraft.Step.policy? {} layeredSteps _ _ :=
      .last (layeredSteps.take 5) rfl (by simp [ServerDraft.Step.policy?])
    obtain ⟨rfl, rfl⟩ := hsince.unique hlast
    generalize s.service.policy = p at hswitched
    obtain ⟨requireAuthentication, redactInternal, introspection⟩ := p
    obtain rfl : requireAuthentication = true :=
      hswitched.requireAuthentication.mpr (Or.inr (by simp))
    obtain rfl : redactInternal = true := hswitched.redactInternal.mpr (Or.inl rfl)
    obtain rfl : introspection = false :=
      eq_false_of_ne_true (mt hswitched.introspection.mp (by simp))
    rfl

end Switchboard
