import Switchboard.Client.Basic
import Switchboard.Proofs.Act
import Switchboard.Proofs.ReadBack

/-!
# Requests, from a client to a server

A client writes a call with its members in a fixed order and a notification
with its members sorted; a server looks members up by name. So it is enough
to know the members in the order in which they are read (`Request.read`), and
what the server makes of them follows by looking them up.

The two versions mark notifications in different ways, and a call never looks
like one: its id is a number.
-/

namespace Switchboard

variable {σ : Type}

/-! ## Parameters -/

/-- Parameters are understood as they were written. -/
theorem Params.ofMember?_toJson (params : Params) :
    Params.ofMember? (some params.toJson) = some params := by
  cases params <;> rfl

/-- Parameters that a client of a version may give are accepted in that version. -/
theorem Call.ofParts_of_check {version : Version} {params : Params}
    (hcheck : Client.check version params = .ok ()) (method : String) (id? : Option Id) :
    Call.ofParts version method (some params.toJson) id? = .ok ⟨version, method, params, id?⟩ := by
  have hallowed : ¬(params.isNamed && !version.allowsNamed) = true := by
    intro hnamed
    unfold Client.check at hcheck
    rw [if_pos hnamed] at hcheck
    exact nomatch hcheck
  unfold Call.ofParts
  rw [Params.ofMember?_toJson]
  exact if_neg hallowed

/-! ## Calls -/

/-- The members of a request in the order in which they are read. -/
def Request.inOrder (r : Request) : Members :=
  ("id", r.id.toJson) :: (r.tag?.toList.map (fun t => ("jsonrpc", Json.str t)) ++
    [("method", .str r.method), ("params", r.params.toJson)])

/-- A request is read back from its bytes. -/
theorem Request.ofBytes?_encode {r : Request} (hparams : r.params.toJson.Valid)
    (hid : r.id.toJson.Valid) (hdepth : r.toJson.depth ≤ Reader.maxDepth) :
    Json.ofBytes? r.encode.toUTF8 = some (.obj r.inOrder) := by
  obtain ⟨tag?, method, params, id⟩ := r
  have hvalid : ∀ kv ∈ tag?.toList.map (fun t => ("jsonrpc", Json.str t)) ++
      [("method", .str method), ("params", params.toJson), ("id", id.toJson)], kv.2.Valid := by
    have hmethod := Json.Valid.str method
    cases tag? with
    | none => simpa using ⟨hmethod, hparams, hid⟩
    | some t => simpa using ⟨Json.Valid.str t, hmethod, hparams, hid⟩
  refine Json.ofBytes?_obj (fun kv hkv => (hvalid kv hkv).sound) ?_ ?_ hdepth
  · refine Members.sorted_of_keys ?_
    cases tag? with
    | none => show List.Pairwise _ ["id", "method", "params"]; decide
    | some t => show List.Pairwise _ ["id", "jsonrpc", "method", "params"]; decide
  · rw [Json.sortedMembers_eq_self fun kv hkv => (hvalid kv hkv).sorted_eq]
    -- the id goes from the end to the front
    show List.Perm (_ ++ ([_, _] ++ [_])) _
    rw [← List.append_assoc]
    exact List.perm_append_comm

/-- A server understands a call as its client meant it. -/
theorem Call.ofJson_inOrder {version : Version} {params : Params}
    (hcheck : Client.check version params = .ok ()) (method : String) {id : Id}
    (hid : Id.ofJson id.toJson = id) :
    Call.ofJson (.obj (Request.make version method params id).inOrder)
      = .ok ⟨version, method, params, some id⟩ := by
  have hparts : Call.ofParts version method (some params.toJson) (some (Id.ofJson id.toJson))
      = .ok ⟨version, method, params, some id⟩ := by
    rw [hid]
    exact Call.ofParts_of_check hcheck method (some id)
  cases version with
  | v1 => exact hparts
  | v2 => exact hparts

namespace Client

/-! ## Notifications -/

/-- The members of a notification in the order in which they are read. -/
def inOrder (version : Version) (method : String) (params : Params) : Members :=
  match version with
  | .v1 => [("id", .null), ("method", .str method), ("params", params.toJson)]
  | .v2 => [("jsonrpc", .str "2.0"), ("method", .str method), ("params", params.toJson)]

theorem inOrder_sorted (version : Version) (method : String) (params : Params) :
    (inOrder version method params).Sorted := by
  refine Members.sorted_of_keys ?_
  cases version with
  | v1 => show List.Pairwise _ ["id", "method", "params"]; decide
  | v2 => show List.Pairwise _ ["jsonrpc", "method", "params"]; decide

/-- A notification is the object of its members in order. -/
theorem notification_eq (version : Version) (method : String) (params : Params) :
    notification version method params = .obj (inOrder version method params) := by
  refine congrArg Json.obj ((inOrder_sorted version method params).ofList_perm ?_)
  cases version with
  | v1 => exact List.perm_append_comm
  | v2 => exact List.Perm.refl _

/-- A notification is read back from its bytes. -/
theorem ofBytes?_notificationBody {version : Version} {method : String} {params : Params}
    (hparams : params.toJson.Valid)
    (hdepth : (notification version method params).depth ≤ Reader.maxDepth) :
    Json.ofBytes? (notificationBody version method params)
      = some (.obj (inOrder version method params)) := by
  have hvalid : (notification version method params).Valid := by
    rw [notification_eq]
    refine .obj (inOrder_sorted version method params) ?_
    have hmethod := Json.Valid.str method
    cases version with
    | v1 => simpa [inOrder] using ⟨Json.Valid.null, hmethod, hparams⟩
    | v2 => simpa [inOrder] using ⟨Json.Valid.str "2.0", hmethod, hparams⟩
  rw [← notification_eq]
  exact hvalid.ofBytes?_toUTF8 hdepth

/-- The id that marks a notification of a version: the null id or none at all. -/
def notificationId? : Version → Option Id
  | .v1 => some .null
  | .v2 => none

/-- A server understands a notification as its client meant it. -/
theorem ofJson_inOrder {version : Version} {params : Params}
    (hcheck : check version params = .ok ()) (method : String) :
    Call.ofJson (.obj (inOrder version method params))
      = .ok ⟨version, method, params, notificationId? version⟩ := by
  cases version with
  | v1 => exact Call.ofParts_of_check hcheck method (some .null)
  | v2 => exact Call.ofParts_of_check hcheck method none

/-! ## What a client sends -/

/-- What the answer to a call means, whatever its id. -/
def meaning (reply : ByteArray) : Except Fault Json :=
  match Response.decode reply with
  | .error f => .error f
  | .ok r =>
    match r.error? with
    | some e => .error (.remote e)
    | none => .ok (Json.ofOption r.result?)

/-- What a reply means does not depend on the state, and does not change it. -/
theorem outcome_eq (id : Id) (reply : ByteArray) (st : σ) :
    (outcome id reply).value st = meaning reply ∧ (outcome id reply).after st = st := by
  unfold outcome meaning
  cases Response.decode reply with
  | error f => exact ⟨rfl, rfl⟩
  | ok r =>
      dsimp only
      -- a strange id is noted, which leaves the state alone
      by_cases hid : r.id ≠ id
      · rw [if_pos hid]
        cases r.error? <;> exact ⟨rfl, rfl⟩
      · rw [if_neg hid]
        cases r.error? <;> exact ⟨rfl, rfl⟩

/-- A client sends one body and takes what comes back for what it means. -/
theorem exchange_eq (carrier : Carrier σ) (body : ByteArray) (id : Id) (st : σ) :
    (exchange carrier body id).value st = ((carrier.send body).value st).bind meaning ∧
      (exchange carrier body id).after st = (carrier.send body).after st := by
  unfold exchange
  rw [Act.value_bind, Act.after_bind]
  cases (carrier.send body).value st with
  | error f => exact ⟨rfl, rfl⟩
  | ok reply => exact outcome_eq id reply _

variable {c : Client} {params : Params} (hcheck : check c.version params = .ok ())
  (carrier : Carrier σ) (method : String) (st : σ)
include hcheck

/-- A call sends one body, and what comes of it is what the answer means. -/
theorem call_eq :
    (c.call carrier method params).value st
        = (((carrier.send (callBody c.version method params c.takeId.1)).value st).bind meaning,
            c.takeId.2)
      ∧ (c.call carrier method params).after st
        = (carrier.send (callBody c.version method params c.takeId.1)).after st := by
  obtain ⟨hvalue, hafter⟩ :=
    exchange_eq carrier (callBody c.version method params c.takeId.1) c.takeId.1 st
  unfold call
  rw [Act.value_inside, Act.after_inside, hcheck]
  exact ⟨congrArg (·, c.takeId.2) hvalue, hafter⟩

/-- A notification sends one body. -/
theorem notify_after :
    (c.notify carrier method params).after st
      = (carrier.notify (notificationBody c.version method params)).after st := by
  unfold notify
  rw [Act.after_inside, hcheck]

omit hcheck

/-! ## What a server makes of it -/

/-- A body holds a single request that is accepted as a call. -/
def ReadAs (body : ByteArray) (call : Call) : Prop :=
  ∃ v, Body.decode body = .ok (.single v) ∧ Call.ofJson v = .ok call

/-- A client's next call of a method. -/
def nextCall (c : Client) (method : String) (params : Params) : Call :=
  ⟨c.version, method, params, some c.takeId.1⟩

theorem nextId_valid (c : Client) : c.takeId.1.toJson.Valid := by
  have hlt := c.nextId.toNat_lt
  refine .num ?_
  show Number.isExact (c.nextId.toNat : ℤ) = true
  unfold Number.isExact
  rw [Bool.and_eq_true, decide_eq_true_iff, decide_eq_true_iff]
  omega

/-- The id of a call is a number, so a call is no notification in either version. -/
theorem nextCall_not_notification (c : Client) (method : String) (params : Params) :
    (c.nextCall method params).isNotification = false :=
  Bool.and_false _

include hcheck

/-- The body of a call is read as that call. -/
theorem callBody_readAs (hparams : params.toJson.Valid)
    (hdepth : (Request.make c.version method params c.takeId.1).toJson.depth ≤ Reader.maxDepth) :
    ReadAs (callBody c.version method params c.takeId.1) (c.nextCall method params) := by
  refine ⟨_, ?_, Call.ofJson_inOrder hcheck method rfl⟩
  unfold Body.decode callBody
  rw [Request.ofBytes?_encode hparams c.nextId_valid hdepth]
  rfl

theorem notificationBody_readAs (hparams : params.toJson.Valid)
    (hdepth : (notification c.version method params).depth ≤ Reader.maxDepth) :
    ReadAs (notificationBody c.version method params)
      ⟨c.version, method, params, notificationId? c.version⟩ := by
  refine ⟨_, ?_, ofJson_inOrder hcheck method⟩
  unfold Body.decode
  rw [ofBytes?_notificationBody hparams hdepth]
  rfl

/-- Client and server agree on what a call and a notification are. Whatever the version of the
    client, the method and the parameters that the version allows, each sends one body. A call is
    accepted as the very call that was made and never as a notification; a notification is accepted
    with its version, method and parameters and always as a notification. -/
theorem sent_bodies_understood (hparams : params.toJson.Valid)
    (hcall : (Request.make c.version method params c.takeId.1).toJson.depth ≤ Reader.maxDepth)
    (hnotification : (notification c.version method params).depth ≤ Reader.maxDepth) :
    (∃ body, ((c.call carrier.recorded method params).after (st, [])).2 = [body] ∧
        ReadAs body (c.nextCall method params)) ∧
      (c.nextCall method params).isNotification = false ∧
      ∃ body id?, ((c.notify carrier.recorded method params).after (st, [])).2 = [body] ∧
        ReadAs body ⟨c.version, method, params, id?⟩ ∧
        Call.isNotification ⟨c.version, method, params, id?⟩ = true := by
  refine ⟨⟨_, ?_, callBody_readAs hcheck method hparams hcall⟩,
    c.nextCall_not_notification method params,
    _, _, ?_, notificationBody_readAs hcheck method hparams hnotification, ?_⟩
  · rw [(call_eq hcheck carrier.recorded method (st, [])).2]
    rfl
  · rw [notify_after hcheck carrier.recorded method (st, [])]
    rfl
  · cases c.version <;> rfl

omit hcheck

/-- Parameters by name, one of them with characters that are not written as they are. -/
def greeting : Params := .named [("name", .str "a\n\"b\""), ("times", .num (.int 2))]

/-- Parameters by name in version 2.0, and the notification that carries them without an id. -/
theorem greeting_understood :
    check .v2 greeting = .ok () ∧ greeting.toJson.Valid ∧
      (∃ body, ((call ⟨.v2, 7⟩ Carrier.scripted.recorded "greet" greeting).after ([], [])).2
          = [body] ∧
        ReadAs body ⟨.v2, "greet", greeting, some (.ofNat 7)⟩) ∧
      ∃ body id?, ((notify ⟨.v2, 7⟩ Carrier.scripted.recorded "greet" greeting).after ([], [])).2
          = [body] ∧
        ReadAs body ⟨.v2, "greet", greeting, id?⟩ ∧
        Call.isNotification ⟨.v2, "greet", greeting, id?⟩ = true := by
  have hcheck : check (⟨.v2, 7⟩ : Client).version greeting = .ok () := rfl
  have hvalid : greeting.toJson.Valid := by
    refine .obj (Members.sorted_of_keys ?_) ?_
    · show List.Pairwise _ ["name", "times"]
      decide
    · exact List.forall_mem_cons.mpr ⟨.str _, List.forall_mem_singleton.mpr (.num rfl)⟩
  obtain ⟨hcall, -, hnotify⟩ := sent_bodies_understood hcheck Carrier.scripted "greet" [] hvalid
    (by decide) (by decide)
  exact ⟨hcheck, hvalid, hcall, hnotify⟩

end Client

end Switchboard
