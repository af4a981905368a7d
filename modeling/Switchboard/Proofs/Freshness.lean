import Switchboard.Proofs.Errands
import Switchboard.Proofs.Groundwork
import Switchboard.Proofs.Runs

/-!
# Fresh ids

Tasks that share a client take the ids of their calls from it, in whatever order
their steps come. What a step can do to the ids is said once (`Sharing.Step`): only
the beginning of a call that the version allows takes one, and it takes the next. So
after any steps the ids that have been taken are the first ones, each of them either
has been sent or is held by a task that has yet to send it (`Sharing.Fresh`), and none
comes a second time. What the carrier brings back, or that it brings back nothing,
makes no difference to that. The steps of a task alone are those of a client that
calls or notifies (`Client.call_eq_prepare`, `Client.notify_eq_prepare`).
-/

namespace Switchboard

/-! ## Errands -/

namespace Errand

/-- Whether an errand is a call. -/
def isCall : Errand → Bool
  | .call _ _ => true
  | .notify _ _ => false

/-- The name of the method. -/
def method : Errand → String
  | .call method _ => method
  | .notify method _ => method

/-- Whether a client of a version refuses an errand: in version 1.0 there are no
    parameters by name. -/
def isRefused (version : Version) (e : Errand) : Bool :=
  match version with
  | .v1 => e.params.isNamed
  | .v2 => false

end Errand

/-- The id that stands in a body: that of the call, and for a notification what marks
    it in its version. -/
def Sent.wireId? (version : Version) : Sent → Option Id
  | .call id _ => some id
  | .notification _ => Client.notificationId? version

/-- The id that a task holds and has yet to send. -/
def Progress.held? : Progress → Option Id
  | .prepared b => b.id?
  | .idle | .sent _ => none

/-- A body is the text of an object with an id for its member `id`, or without the
    member. -/
def CarriesId (body : ByteArray) (id? : Option Id) : Prop :=
  ∃ members : Members, body = (Json.obj members).render.toUTF8
    ∧ members.lookup "id" = id?.map Id.toJson

namespace Client

variable {c : Client} {e : Errand} {b : Sent}

/-- The fault of parameters by name in version 1.0. -/
def namedRefused : Fault :=
  .usage ("Unsupported arg type for JSON-RPC 1.0 (the default version for this client, "
    ++ "pass version=\"2.0\" to use keyword arguments)")

theorem check_of_refused {version : Version} (h : e.isRefused version = true) :
    check version e.params = .error namedRefused := by
  cases version with
  | v1 =>
      have hnamed : e.params.isNamed = true := h
      refine if_pos ?_
      rw [hnamed]
      rfl
  | v2 => exact nomatch h

theorem check_of_allowed {version : Version} (h : e.isRefused version = false) :
    check version e.params = .ok () := by
  cases version with
  | v1 =>
      have hnamed : e.params.isNamed = false := h
      refine if_neg ?_
      rw [hnamed]
      exact Bool.false_ne_true
  | v2 => exact if_neg (by simp [Version.allowsNamed])

theorem prepare_of_refused (h : e.isRefused c.version = true) :
    c.prepare e = .error namedRefused := by
  unfold prepare
  rw [check_of_refused h]
  rfl

/-- A call that is allowed takes the next id and carries it. -/
theorem prepare_call {method : String} {params : Params}
    (h : (Errand.call method params).isRefused c.version = false) :
    c.prepare (.call method params)
      = .ok (.call c.takeId.1 (callBody c.version method params c.takeId.1), c.takeId.2) := by
  rw [prepare, check_of_allowed h]
  rfl

/-- A notification that is allowed leaves the client as it was. -/
theorem prepare_notify {method : String} {params : Params}
    (h : (Errand.notify method params).isRefused c.version = false) :
    c.prepare (.notify method params)
      = .ok (.notification (notificationBody c.version method params), c) := by
  rw [prepare, check_of_allowed h]
  rfl

/-- What the reply to a call means to its task is what it means to a client. -/
theorem meaning_call (id : Id) (body : ByteArray) (reply : Except Fault ByteArray) :
    Sharing.meaning (.call id body) reply = reply.bind meaning := by
  cases reply with
  | error f => rfl
  | ok reply => exact (outcome_eq id reply ()).1

/-- A call of a client alone is its errand: it is prepared, its body is sent, and what
    comes back is made sense of. -/
theorem call_eq_prepare {σ : Type} (carrier : Carrier σ) (method : String) (params : Params)
    (st : σ) : (c.call carrier method params).value st =
      match c.prepare (.call method params) with
      | .error f => (.error f, c)
      | .ok (b, next) => (Sharing.meaning b ((carrier.send b.body).value st), next) := by
  cases hrefused : (Errand.call method params).isRefused c.version with
  | true =>
      have hcheck : check c.version params = .error namedRefused := check_of_refused hrefused
      rw [prepare_of_refused hrefused, call, Act.value_inside, hcheck]
      rfl
  | false =>
      have hcheck : check c.version params = .ok () := check_of_allowed hrefused
      rw [prepare_call hrefused, (call_eq hcheck carrier method st).1]
      exact congrArg (·, c.takeId.2) (meaning_call _ _ _).symm

/-- A notification of a client alone is its errand. -/
theorem notify_eq_prepare {σ : Type} (carrier : Carrier σ) (method : String) (params : Params)
    (st : σ) : (c.notify carrier method params).value st =
      match c.prepare (.notify method params) with
      | .error f => .error f
      | .ok (b, _) => (carrier.notify b.body).value st := by
  cases hrefused : (Errand.notify method params).isRefused c.version with
  | true =>
      have hcheck : check c.version params = .error namedRefused := check_of_refused hrefused
      rw [prepare_of_refused hrefused, notify, Act.value_inside, hcheck]
      rfl
  | false =>
      have hcheck : check c.version params = .ok () := check_of_allowed hrefused
      rw [prepare_notify hrefused, notify, Act.value_inside, hcheck]
      rfl

/-- What is prepared carries the id that marks it. -/
theorem Prepares.carriesId (h : c.Prepares e b) : CarriesId b.body (b.wireId? c.version) := by
  cases h with
  | @call method params =>
      refine ⟨_, rfl, ?_⟩
      cases c.version <;> rfl
  | @notification method params =>
      refine ⟨inOrder c.version method params, ?_, ?_⟩
      · rw [← notification_eq]
        rfl
      · cases c.version <;> rfl

/-- What is prepared is read with the id that marks it. -/
theorem Prepares.readAs_wireId (h : c.Prepares e b) (he : e.Readable) :
    ReadAs b.body ⟨c.version, e.method, e.params, b.wireId? c.version⟩ := by
  have hread := h.readAs he
  cases h with
  | call => exact hread
  | notification => exact hread

end Client

namespace Sharing

open scoped List

/-- The ids of the first calls of a client. -/
def firstIds (count : Nat) : List Id := (List.range count).map fun j => .ofNat (j + 1)

theorem firstIds_succ (count : Nat) :
    firstIds (count + 1) = firstIds count ++ [.ofNat (count + 1)] := by
  rw [firstIds, List.range_succ, List.map_append]
  rfl

theorem length_firstIds (count : Nat) : (firstIds count).length = count := by
  rw [firstIds, List.length_map, List.length_range]

theorem nodup_firstIds (count : Nat) : (firstIds count).Nodup := by
  refine List.Nodup.map (fun j j' h => ?_) List.nodup_range
  injection h with h
  injection h with h
  omega

/-- Whether an action takes an id: it begins a call that the version allows. -/
def Action.takesId (version : Version) : Action → Bool
  | .begin _ e => e.isCall && !e.isRefused version
  | .send _ | .settle _ _ => false

/-- The number of calls that take an id. -/
def callCount (version : Version) (actions : List Action) : Nat :=
  actions.countP (Action.takesId version)

/-- The ids that tasks hold and have yet to send. -/
def held (s : Sharing) : List Id := s.tasks.filterMap Progress.held?

/-- The ids of the calls that have been sent. -/
def sentIds (s : Sharing) : List Id := s.sent.filterMap Sent.id?

/-! ## Steps -/

/-- Everything that can happen among the tasks. -/
inductive Step (s : Sharing) : Action → Sharing → Prop where
  | refused {i : Nat} {e : Errand} (hidle : s.tasks[i]? = some .idle)
      (h : e.isRefused s.client.version = true) :
      Step s (.begin i e)
        { s with finished := s.finished ++ [⟨i, .error Client.namedRefused⟩] }
  | called {i : Nat} {method : String} {params : Params} {b : Sent}
      (hidle : s.tasks[i]? = some .idle)
      (h : (Errand.call method params).isRefused s.client.version = false)
      (hb : s.client.Prepares (.call method params) b) (hid : b.id? = some s.client.takeId.1) :
      Step s (.begin i (.call method params))
        { s.setTask i (.prepared b) with
          client := s.client.takeId.2, taken := s.taken ++ [s.client.takeId.1] }
  | notified {i : Nat} {method : String} {params : Params} {b : Sent}
      (hidle : s.tasks[i]? = some .idle)
      (h : (Errand.notify method params).isRefused s.client.version = false)
      (hb : s.client.Prepares (.notify method params) b) (hid : b.id? = none) :
      Step s (.begin i (.notify method params)) (s.setTask i (.prepared b))
  | sent {i : Nat} {b : Sent} (h : s.tasks[i]? = some (.prepared b)) :
      Step s (.send i) { s.setTask i (.sent b) with sent := s.sent ++ [b] }
  | settled {i : Nat} {reply : Except Fault ByteArray} {b : Sent}
      (h : s.tasks[i]? = some (.sent b)) :
      Step s (.settle i reply) (s.finish i (meaning b reply))

variable {s t : Sharing} {a : Action} {version : Version} {actions : List Action}

/-- A task that is idle already is left as it is. -/
theorem setTask_idle {i : Nat} (h : s.tasks[i]? = some .idle) : s.setTask i .idle = s := by
  obtain ⟨hi, hidle⟩ := List.getElem?_eq_some_iff.mp h
  unfold setTask
  rw [← hidle, List.set_getElem_self]

theorem step_begin {i : Nat} {e : Errand} (hidle : s.tasks[i]? = some .idle) :
    Step s (.begin i e) (s.begin i e) := by
  unfold begin
  cases hrefused : e.isRefused s.client.version with
  | true =>
      rw [Client.prepare_of_refused hrefused]
      show Step s _ { s.setTask i .idle with finished := _ }
      rw [setTask_idle hidle]
      exact .refused hidle hrefused
  | false =>
      cases e with
      | call method params =>
          have hprepare := Client.prepare_call hrefused
          rw [hprepare]
          exact .called hidle hrefused (Client.prepares_of_prepare hprepare).1 rfl
      | notify method params =>
          have hprepare := Client.prepare_notify hrefused
          rw [hprepare]
          show Step s _ { s.setTask i (.prepared _) with taken := s.taken ++ [] }
          rw [List.append_nil]
          exact .notified hidle hrefused (Client.prepares_of_prepare hprepare).1 rfl

/-- A step that is taken is one of those that can happen. -/
theorem step_of_step? (h : s.step? a = some t) : Step s a t := by
  cases a with
  | begin i e =>
      simp only [step?] at h
      split at h
      case h_1 hidle =>
        obtain rfl := Option.some.inj h
        exact step_begin hidle
      case h_2 => exact nomatch h
  | send i =>
      simp only [step?] at h
      split at h
      case h_1 b hb =>
        obtain rfl := Option.some.inj h
        exact .sent hb
      case h_2 => exact nomatch h
  | settle i reply =>
      simp only [step?] at h
      split at h
      case h_1 b hb =>
        obtain rfl := Option.some.inj h
        exact .settled hb
      case h_2 => exact nomatch h

/-! ## What holds after any steps -/

/-- A body was prepared for an errand that a task has begun. -/
def Begun (version : Version) (actions : List Action) (b : Sent) : Prop :=
  ∃ i e c, Action.begin i e ∈ actions ∧ e.isRefused version = false ∧ c.version = version
    ∧ Client.Prepares c e b

theorem Begun.append {b : Sent} (h : Begun version actions b) (rest : List Action) :
    Begun version (actions ++ rest) b := by
  obtain ⟨i, e, c, hmem, h⟩ := h
  exact ⟨i, e, c, List.mem_append_left _ hmem, h⟩

/-- The ids that have been taken are the first ones, and each of them either has been
    sent or is held by a task. -/
structure Fresh (version : Version) (actions : List Action) (s : Sharing) : Prop where
  version_eq : s.client.version = version
  nextId_eq : s.client.nextId = UInt64.ofNat (callCount version actions + 1)
  taken_eq : s.taken = firstIds (callCount version actions)
  perm : s.sentIds ++ s.held ~ s.taken
  prepared : ∀ (i : Nat) (p : Progress), s.tasks[i]? = some p → ∀ b, p = .prepared b →
    Begun version actions b
  sent : ∀ b ∈ s.sent, Begun version actions b

/-- Before the first step no id has been taken. -/
theorem fresh_start (version : Version) (n : Nat) : Fresh version [] (start version n) where
  version_eq := rfl
  nextId_eq := rfl
  taken_eq := rfl
  perm := by
    have hheld : (start version n).held = [] := by
      refine List.filterMap_eq_nil_iff.mpr fun p hp => ?_
      rw [List.eq_of_mem_replicate hp]
      rfl
    rw [hheld]
    exact List.Perm.refl _
  prepared := by
    intro i p hp b hb
    rw [List.eq_of_mem_replicate (List.mem_of_getElem? hp)] at hb
    exact nomatch hb
  sent := fun b hb => nomatch hb

theorem callCount_of_takesId (actions : List Action) (ha : a.takesId version = true) :
    callCount version (actions ++ [a]) = callCount version actions + 1 := by
  rw [callCount, List.countP_append, List.countP_singleton, if_pos ha, callCount]

theorem callCount_of_not_takesId (actions : List Action) (ha : a.takesId version = false) :
    callCount version (actions ++ [a]) = callCount version actions := by
  rw [callCount, List.countP_append, List.countP_singleton, if_neg (by simp [ha]), Nat.add_zero,
    callCount]

/-- A task that goes to another point lets go of the id that it held there, and holds the
    one that it holds then. -/
theorem held_setTask {i : Nat} {p : Progress} (h : s.tasks[i]? = some p) (q : Progress) :
    (s.setTask i q).held ++ p.held?.toList ~ s.held ++ q.held?.toList := by
  obtain ⟨front, back, htasks, hset⟩ := exists_append_set h q
  have hmiddle : ∀ r : Progress, (front ++ r :: back).filterMap Progress.held?
      ~ r.held?.toList ++ (front ++ back).filterMap Progress.held? := by
    intro r
    refine (List.perm_middle.filterMap Progress.held?).trans ?_
    rw [List.filterMap_cons]
    cases r.held? <;> exact List.Perm.refl _
  have hheld : s.held ~ p.held?.toList ++ (front ++ back).filterMap Progress.held? := by
    rw [held, htasks]
    exact hmiddle p
  have hheld' : (s.setTask i q).held
      ~ q.held?.toList ++ (front ++ back).filterMap Progress.held? := by
    rw [held, setTask, hset]
    exact hmiddle q
  calc (s.setTask i q).held ++ p.held?.toList
    _ ~ q.held?.toList ++ (front ++ back).filterMap Progress.held? ++ p.held?.toList :=
      hheld'.append_right _
    _ = q.held?.toList ++ ((front ++ back).filterMap Progress.held? ++ p.held?.toList) :=
      List.append_assoc _ _ _
    _ ~ q.held?.toList ++ (p.held?.toList ++ (front ++ back).filterMap Progress.held?) :=
      List.perm_append_comm.append_left _
    _ ~ q.held?.toList ++ s.held := hheld.symm.append_left _
    _ ~ s.held ++ q.held?.toList := List.perm_append_comm

/-- The tasks after one of them is at another point are known if the body that it may
    hold is. -/
theorem Fresh.prepared_setTask (h : Fresh version actions s) {i : Nat} {q : Progress}
    (hq : ∀ b, q = .prepared b → Begun version (actions ++ [a]) b) :
    ∀ (j : Nat) (p : Progress), (s.setTask i q).tasks[j]? = some p → ∀ b, p = .prepared b →
      Begun version (actions ++ [a]) b :=
  forall_getElem?_set hq fun j p _ hp b hb => (h.prepared j p hp b hb).append _

/-- A task that begins an errand that is allowed holds the body for it. -/
theorem Fresh.prepared_begin (h : Fresh version actions s) {i : Nat} {e : Errand} {b : Sent}
    (hallowed : e.isRefused version = false) (hb : s.client.Prepares e b) :
    ∀ (j : Nat) (p : Progress), (s.setTask i (.prepared b)).tasks[j]? = some p →
      ∀ b', p = .prepared b' → Begun version (actions ++ [.begin i e]) b' := by
  refine h.prepared_setTask fun b' hb' => ?_
  obtain rfl := Progress.prepared.inj hb'
  exact ⟨i, e, s.client, List.mem_append_right _ List.mem_cons_self, hallowed, h.version_eq, hb⟩

/-- An action that takes no id and leaves the client alone moves ids at most. -/
theorem Fresh.keep (h : Fresh version actions s) (ha : a.takesId version = false)
    (hclient : t.client = s.client) (htaken : t.taken = s.taken)
    (hperm : t.sentIds ++ t.held ~ s.sentIds ++ s.held)
    (hprepared : ∀ (j : Nat) (p : Progress), t.tasks[j]? = some p → ∀ b, p = .prepared b →
      Begun version (actions ++ [a]) b)
    (hsent : ∀ b ∈ t.sent, Begun version (actions ++ [a]) b) :
    Fresh version (actions ++ [a]) t := by
  have hcount := callCount_of_not_takesId actions ha
  exact ⟨by rw [hclient, h.version_eq], by rw [hclient, h.nextId_eq, hcount],
    by rw [htaken, h.taken_eq, hcount], htaken ▸ hperm.trans h.perm, hprepared, hsent⟩

/-- The next id is one more than the number of those that have been taken. -/
theorem Fresh.takeId_eq (h : Fresh version actions s)
    (hcount : callCount version actions + 1 < 2 ^ 64) :
    s.client.takeId.1 = .ofNat (callCount version actions + 1) := by
  rw [Client.takeId, h.nextId_eq, UInt64.toNat_ofNat', Nat.mod_eq_of_lt hcount]

/-- A step keeps ids fresh as long as the counter does not come round. -/
theorem Fresh.step (h : Fresh version actions s) (hstep : Step s a t)
    (hcount : callCount version (actions ++ [a]) < 2 ^ 64) : Fresh version (actions ++ [a]) t := by
  have hsent : ∀ b ∈ s.sent, Begun version (actions ++ [a]) b :=
    fun b hb => (h.sent b hb).append _
  cases hstep with
  | refused hidle hrefused =>
      rw [h.version_eq] at hrefused
      exact h.keep (by simp [Action.takesId, hrefused]) rfl rfl (List.Perm.refl _)
        (fun j p hp b hb => (h.prepared j p hp b hb).append _) hsent
  | @called i method params b hidle hrefused hb hid =>
      rw [h.version_eq] at hrefused
      -- the only step that takes an id: what has been taken and what is held grow by it
      have hnext := callCount_of_takesId actions
        (show Action.takesId version (.begin i (.call method params)) = true by
          simp [Action.takesId, Errand.isCall, hrefused])
      rw [hnext] at hcount
      refine ⟨h.version_eq, ?_, ?_, ?_, ?_, hsent⟩
      · show s.client.nextId + 1 = _
        rw [hnext, h.nextId_eq, UInt64.ofNat_add (_ + 1) 1]
        rfl
      · show s.taken ++ [s.client.takeId.1] = _
        rw [hnext, firstIds_succ, h.takeId_eq hcount, h.taken_eq]
      · have hheld := held_setTask hidle (.prepared b)
        simp only [Progress.held?, hid, Option.toList_none, Option.toList_some,
          List.append_nil] at hheld
        have hall := (hheld.append_left s.sentIds).trans
          ((List.append_assoc _ _ _).symm ▸ h.perm.append_right [s.client.takeId.1])
        exact hall
      · exact h.prepared_begin hrefused hb
  | @notified i method params b hidle hrefused hb hid =>
      rw [h.version_eq] at hrefused
      have hheld := held_setTask hidle (.prepared b)
      simp only [Progress.held?, hid, Option.toList_none, List.append_nil] at hheld
      exact h.keep rfl rfl rfl (hheld.append_left _) (h.prepared_begin hrefused hb) hsent
  | @sent i b hb =>
      have hheld := held_setTask hb (.sent b)
      simp only [Progress.held?, Option.toList_none, List.append_nil] at hheld
      -- an id that is sent goes from those held to those sent
      have hsentIds : (s.sent ++ [b]).filterMap Sent.id? = s.sentIds ++ b.id?.toList := by
        rw [List.filterMap_append, List.filterMap_cons]
        cases b.id? <;> rfl
      refine h.keep rfl rfl rfl ?_ (h.prepared_setTask fun _ hb' => nomatch hb') ?_
      · calc (s.sent ++ [b]).filterMap Sent.id? ++ (s.setTask i (.sent b)).held
          _ = s.sentIds ++ (b.id?.toList ++ (s.setTask i (.sent b)).held) := by
            rw [hsentIds, List.append_assoc]
          _ ~ s.sentIds ++ ((s.setTask i (.sent b)).held ++ b.id?.toList) :=
            List.perm_append_comm.append_left _
          _ ~ s.sentIds ++ s.held := hheld.append_left _
      · refine List.forall_mem_append.mpr ⟨hsent, List.forall_mem_singleton.mpr ?_⟩
        exact (h.prepared i _ hb b rfl).append _
  | @settled i reply b hb =>
      have hheld := held_setTask hb .idle
      simp only [Progress.held?, Option.toList_none, List.append_nil] at hheld
      exact h.keep rfl rfl rfl (hheld.append_left _)
        (h.prepared_setTask fun _ hb' => nomatch hb') hsent

/-! ## Runs -/

theorem runs : Runs step? run? := ⟨fun _ => rfl, fun _ _ _ => rfl⟩

theorem callCount_append_le (before after : List Action) :
    callCount version before ≤ callCount version (before ++ after) := by
  rw [callCount, callCount, List.countP_append]
  exact Nat.le_add_right _ _

/-- Ids are fresh after any steps that the counter has room for. -/
theorem fresh_of_run? {n : Nat} (hrun : run? actions (start version n) = some s) :
    callCount version actions < 2 ^ 64 → Fresh version actions s := by
  refine runs.traced (P := fun actions s => callCount version actions < 2 ^ 64 →
    Fresh version actions s) (fun _ => fresh_start version n) ?_ hrun
  intro before a t u hstep ih hcount
  exact (ih ((callCount_append_le before [a]).trans_lt hcount)).step (step_of_step? hstep) hcount

/-! ## What an action does to the ids -/

/-- What an action among the tasks of a client of a version comes to. An errand that is refused
    ends at once in the fault, and nothing else happens. A call that is allowed takes the next id;
    nothing else takes one or changes the client: no notification, no sending and no reply,
    whatever it is. And nothing is sent but by sending. -/
structure Accounts (version : Version) (s : Sharing) (a : Action) (t : Sharing) : Prop where
  refused : ∀ i e, a = .begin i e → e.isRefused version = true →
    t = { s with finished := s.finished ++ [⟨i, .error Client.namedRefused⟩] }
  takes : a.takesId version = true → t.taken = s.taken ++ [.ofNat (s.taken.length + 1)]
  keeps : a.takesId version = false → t.taken = s.taken ∧ t.client = s.client
  silent : (∀ i, a ≠ .send i) → t.sent = s.sent

/-- Where ids are fresh, every step accounts for what it takes. -/
theorem Fresh.accounts (h : Fresh version actions s) (hstep : Step s a t)
    (hcount : callCount version (actions ++ [a]) < 2 ^ 64) : s.Accounts version a t := by
  cases hstep with
  | refused hidle hrefused =>
      rw [h.version_eq] at hrefused
      refine ⟨fun i e ha _ => ?_, fun htakes => ?_, fun _ => ⟨rfl, rfl⟩, fun _ => rfl⟩
      · injection ha with hi
        rw [hi]
      · simp [Action.takesId, hrefused] at htakes
  | @called i method params b hidle hrefused hb hid =>
      rw [h.version_eq] at hrefused
      have htakes : Action.takesId version (.begin i (.call method params)) = true := by
        simp [Action.takesId, Errand.isCall, hrefused]
      refine ⟨fun i e ha he => ?_, fun _ => ?_, fun hnot => ?_, fun _ => rfl⟩
      · injection ha with _ he'
        rw [← he', hrefused] at he
        exact nomatch he
      · rw [callCount_of_takesId _ htakes] at hcount
        rw [h.takeId_eq hcount, h.taken_eq, length_firstIds]
      · exact nomatch htakes.symm.trans hnot
  | notified hidle hrefused =>
      rw [h.version_eq] at hrefused
      refine ⟨fun i e ha he => ?_, (nomatch ·), fun _ => ⟨rfl, rfl⟩, fun _ => rfl⟩
      injection ha with _ he'
      rw [← he', hrefused] at he
      exact nomatch he
  | @sent i b =>
      exact ⟨fun _ _ ha => (nomatch ha), (nomatch ·), fun _ => ⟨rfl, rfl⟩,
        fun hnot => absurd rfl (hnot i)⟩
  | settled =>
      exact ⟨fun _ _ ha => (nomatch ha), (nomatch ·), fun _ => ⟨rfl, rfl⟩,
        fun _ => rfl⟩

/-- What was prepared for an errand is marked as the version has it. -/
theorem Begun.marked {b : Sent} (h : Begun version actions b) :
    CarriesId b.body (b.wireId? version) ∧ ∃ i e, Action.begin i e ∈ actions
      ∧ e.isRefused version = false ∧ b.id?.isSome = e.isCall
      ∧ (e.Readable → Client.ReadAs b.body ⟨version, e.method, e.params, b.wireId? version⟩) := by
  obtain ⟨i, e, c, hmem, hallowed, rfl, hprepares⟩ := h
  refine ⟨hprepares.carriesId, i, e, hmem, hallowed, ?_, hprepares.readAs_wireId⟩
  cases hprepares with
  | call => rfl
  | notification => rfl

/-- Ids are fresh whatever the order in which tasks that share a client come to their
    steps, as long as fewer calls than there are numbers take one. After any steps the
    ids that have been taken are the first ones; those that have been sent are distinct,
    and together with those that tasks hold and have yet to send they are just the ones
    that have been taken. Each body that has been sent carries the id of its call, or
    what marks a notification in its version. And at every step on the way a refused
    errand ends in the fault and does nothing else, a call that is allowed takes the next
    id, and nothing else takes one or gives one back, whatever a carrier brings. -/
theorem call_ids_fresh {n : Nat} (hrun : run? actions (start version n) = some s)
    (hcount : callCount version actions < 2 ^ 64) :
    s.taken = firstIds (callCount version actions)
      ∧ s.sentIds.Nodup
      ∧ s.sentIds ++ s.held ~ firstIds (callCount version actions)
      ∧ (∀ b ∈ s.sent, CarriesId b.body (b.wireId? version) ∧ ∃ i e, Action.begin i e ∈ actions
          ∧ e.isRefused version = false ∧ b.id?.isSome = e.isCall
          ∧ (e.Readable → Client.ReadAs b.body ⟨version, e.method, e.params, b.wireId? version⟩))
      ∧ ∀ before a after, actions = before ++ a :: after →
          ∃ t u, run? before (start version n) = some t ∧ t.step? a = some u
            ∧ run? after u = some s ∧ t.Accounts version a u := by
  have hfresh := fresh_of_run? hrun hcount
  have hperm := hfresh.taken_eq ▸ hfresh.perm
  refine ⟨hfresh.taken_eq, ?_, hperm, fun b hb => (hfresh.sent b hb).marked, ?_⟩
  · exact (hperm.nodup_iff.mpr (nodup_firstIds _)).of_append_left
  · rintro before a after rfl
    obtain ⟨t, u, ht, hu, hafter⟩ := runs.exists_of_append_cons hrun
    -- what there is room for as a whole there is room for in each part
    have hupto : callCount version (before ++ [a]) < 2 ^ 64 := by
      rw [List.append_cons] at hcount
      exact (callCount_append_le _ _).trans_lt hcount
    have hbefore := fresh_of_run? ht ((callCount_append_le _ _).trans_lt hupto)
    exact ⟨t, u, ht, hu, hafter, hbefore.accounts (step_of_step? hu) hupto⟩

/-- Two tasks of a client of version 1.0: while the first call is on its way a call by
    name is refused and a notification is sent, then the first call fails and is made
    again. -/
def overlapping : List Action :=
  [.begin 0 (.call "add" (.positional [])), .begin 1 (.call "add" (.named [])),
    .begin 1 (.notify "log" (.positional [])), .send 1, .send 0,
    .settle 0 (.error (.transport "reset")), .begin 0 (.call "add" (.positional [])), .send 0]

/-- The call that is made again has another id than the one that failed. -/
theorem overlapping_ids_fresh : ∃ s, run? overlapping (start .v1 2) = some s
    ∧ callCount .v1 overlapping < 2 ^ 64 ∧ s.taken = [.ofNat 1, .ofNat 2]
    ∧ s.sentIds.Nodup ∧ s.sentIds ++ s.held ~ [.ofNat 1, .ofNat 2] := by
  have hrun : run? overlapping (start .v1 2) = some _ := rfl
  have hcount : callCount .v1 overlapping < 2 ^ 64 := by decide
  obtain ⟨htaken, hnodup, hperm, -⟩ := call_ids_fresh hrun hcount
  exact ⟨_, hrun, hcount, htaken, hnodup, hperm⟩

end Sharing

end Switchboard
