import Switchboard.Client.Sharing
import Switchboard.Proofs.Notifications
import Switchboard.Proofs.Requests
import Switchboard.Socket.Serving

/-!
# Errands, from a client to the reply

What a client prepares for an errand is read by a server as the call that was
meant, whatever service is behind it (`Client.readAs_of_prepare`). So whether a
body gets a reply, and which one, can be said without its bytes: a call gets
the response to it, and a notification gets nothing.
-/

namespace Switchboard

variable {σ : Type}

/-- An errand whose body can be read by a server: the parameters are a value as programs have them,
    and inside the body they are nested no deeper than readers go. -/
structure Errand.Readable (e : Errand) : Prop where
  valid : e.params.toJson.Valid
  depth : e.params.toJson.depth + 1 ≤ Reader.maxDepth

/-! ## What is prepared -/

namespace Client

variable {c next : Client} {e : Errand} {b : Sent}

/-- A client prepares a body for an errand. -/
inductive Prepares (c : Client) : Errand → Sent → Prop where
  | call {method : String} {params : Params} (hcheck : check c.version params = .ok ()) :
      Prepares c (.call method params)
        (.call c.takeId.1 (callBody c.version method params c.takeId.1))
  | notification {method : String} {params : Params} (hcheck : check c.version params = .ok ()) :
      Prepares c (.notify method params)
        (.notification (notificationBody c.version method params))

/-- What a client makes of an errand is prepared for it, in a version that stays. -/
theorem prepares_of_prepare (h : c.prepare e = .ok (b, next)) :
    c.Prepares e b ∧ next.version = c.version := by
  unfold prepare at h
  cases hcheck : check c.version e.params with
  | error f =>
      rw [hcheck] at h
      exact nomatch h
  | ok _ =>
      rw [hcheck] at h
      cases e with
      | call method params =>
          obtain ⟨rfl, rfl⟩ := Prod.mk.inj (Except.ok.inj h)
          exact ⟨.call hcheck, rfl⟩
      | notify method params =>
          obtain ⟨rfl, rfl⟩ := Prod.mk.inj (Except.ok.inj h)
          exact ⟨.notification hcheck, rfl⟩

/-- Nothing is prepared for an errand that the version does not allow. -/
theorem Prepares.check_eq (h : c.Prepares e b) : check c.version e.params = .ok () := by
  cases h with
  | call hcheck => exact hcheck
  | notification hcheck => exact hcheck

/-- The body of a call is prepared for an errand that is one. -/
theorem Prepares.eq_call {id : Id} {body : ByteArray} (h : c.Prepares e (.call id body)) :
    ∃ method params, e = .call method params ∧ id = c.takeId.1 ∧
      body = callBody c.version method params id := by
  cases h with
  | call => exact ⟨_, _, rfl, rfl, rfl⟩

/-- The call that a server is to read in the body for an errand. -/
def meant (c : Client) : Errand → Call
  | .call method params => c.nextCall method params
  | .notify method params => ⟨c.version, method, params, notificationId? c.version⟩

/-- A call is never taken for a notification, and a notification always is. -/
theorem Prepares.isNotification_meant (h : c.Prepares e b) :
    (c.meant e).isNotification = b.id?.isNone := by
  cases h with
  | call => exact c.nextCall_not_notification _ _
  | notification =>
      simp only [meant]
      cases c.version <;> rfl

theorem depth_make (version : Version) (method : String) (params : Params) (c : Client) :
    (Request.make version method params c.takeId.1).toJson.depth ≤ params.toJson.depth + 1 := by
  cases version <;>
    simp [Request.make, Request.toJson, Version.tag?, Json.depth, Json.membersDepth, takeId,
      Id.ofNat, Id.toJson]

theorem depth_notification (version : Version) (method : String) (params : Params) :
    (notification version method params).depth ≤ params.toJson.depth + 1 := by
  rw [notification_eq]
  cases version <;> simp [inOrder, Json.depth, Json.membersDepth]

/-- The body for an errand is read as what was meant. -/
theorem Prepares.readAs (h : c.Prepares e b) (he : e.Readable) : ReadAs b.body (c.meant e) := by
  cases h with
  | call hcheck =>
      exact callBody_readAs hcheck _ he.valid ((depth_make _ _ _ c).trans he.depth)
  | notification hcheck =>
      exact notificationBody_readAs hcheck _ he.valid ((depth_notification _ _ _).trans he.depth)

end Client

/-! ## What is replied -/

namespace Service

variable (s : Service σ) (verdict : Bool)

/-- A body that holds a single call gets the response to it, and the response is marked if the call
    is a notification. -/
theorem answer_of_readAs {body : ByteArray} {call : Call} (h : Client.ReadAs body call) (st : σ) :
    (s.answer body verdict).value st
      = .single ⟨(s.answerCall call verdict).value st, call.isNotification⟩ := by
  obtain ⟨v, hdecode, hcall⟩ := h
  rw [s.answer_of_single verdict hdecode, s.answerCall_value]
  exact congrArg Replies.single (s.answerEnvelope_value_of_call verdict hcall st)

/-- A frame that holds a call is answered by the response to the call, unless that is not wanted. -/
theorem answerFrame_of_readAs {f : Frame} {call : Call} (h : Client.ReadAs f.body call) (st : σ) :
    (s.answerFrame verdict f).value st = if call.isNotification then none
      else some (f.withBody ((s.answerCall call verdict).value st).encode.toUTF8) := by
  have hvalue : (s.answerFrame verdict f).value st
      = ((s.answer f.body verdict).value st).replyBody?.map fun text => f.withBody text.toUTF8 :=
    rfl
  rw [hvalue, s.answer_of_readAs verdict h]
  cases hcall : call.isNotification with
  | true =>
      rw [(Replies.replyBody?_eq_none_iff _).mpr rfl]
      rfl
  | false =>
      rw [Replies.replyBody?_single rfl]
      rfl

end Service

end Switchboard
