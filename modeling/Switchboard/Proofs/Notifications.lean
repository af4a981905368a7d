import Switchboard.Proofs.Authentication
import Switchboard.Proofs.Envelopes

/-!
# Answers that are not wanted

A NOTIFICATION is a request to which its sender wants no answer: it has no
id, or in version 1.0 the null id. It gets a reply like every other envelope,
and the reply is marked; the marked ones are taken out before a body is sent
back. What is no request is never a notification, so that its sender is told.

The mark is put on the reply when the envelope is answered, and a handler
works out for itself whether it is wanted. Both read the same two members
(`Call.isNotification_eq`), and nothing that happens to a call on its way can
change them. `reply_sent_iff_wanted` goes on from there to what is sent back.
-/

namespace Switchboard

variable {σ : Type}

/-- An envelope is a request to which no answer is wanted: it is accepted as a call, and it has no
    id or, in version 1.0, the null id. -/
def Json.isNotification (v : Json) : Bool :=
  match Call.ofJson v with
  | .error _ => false
  | .ok _ => v.get? "id" = none || v.dialect = .v1 && v.get? "id" = some .null

/-- What a body holds wants no answer: it is a notification, or it is a batch of nothing but
    notifications. A body that is no JSON text wants one. -/
def Body.wantsNoAnswer : Option Json → Bool
  | none => false
  | some (.arr []) => false
  | some (.arr items) => items.all Json.isNotification
  | some v => v.isNotification

/-! ## One envelope -/

theorem Id.isNull_ofJson (v : Json) : (Id.ofJson v).isNull = decide (v = .null) := by
  cases v with
  | null => rfl
  | bool _ | num _ | str _ | arr _ | obj _ => simp [Id.ofJson, Id.isNull]

/-- A call is a notification exactly if its envelope is. -/
theorem Call.isNotification_eq {v : Json} {c : Call} (hcall : Call.ofJson v = .ok c) :
    c.isNotification = v.isNotification := by
  obtain ⟨-, -, -, hversion, hid⟩ := Call.ofJson_eq_ok_iff.mp hcall
  unfold Call.isNotification Json.isNotification
  rw [hcall, hversion, hid]
  cases v.get? "id" with
  | none => rfl
  | some id =>
      show (decide (v.dialect = .v1) && (Id.ofJson id).isNull)
        = (decide (some id = none) || decide (v.dialect = .v1) && decide (some id = some .null))
      rw [Id.isNull_ofJson, decide_eq_false (show ¬ some id = none by simp), Bool.false_or]
      simp only [Option.some.injEq]

/-- An envelope that is no request is no notification. -/
theorem Json.isNotification_of_rejection {v : Json} {r : Rejection}
    (hreject : Call.ofJson v = .error r) : v.isNotification = false := by
  unfold Json.isNotification
  rw [hreject]

/-- The mark on a reply, and what the handlers called on the way were told, are what the envelope
    says, however the exchange ends. -/
structure Exchange.Marked (x : Exchange σ) : Prop where
  reply : x.reply.isNotification = x.envelope.isNotification
  handlers : ∀ i ∈ x.invocations, i.context.isNotification = x.reply.isNotification

namespace Service

variable (s : Service σ) (authenticated : Bool)

/-- The mark on a reply is what its envelope says. -/
theorem exchange_marked (v : Json) (st : σ) : (s.exchange authenticated v st).Marked := by
  have hreply : (s.exchange authenticated v st).reply.isNotification = v.isNotification := by
    cases hcall : Call.ofJson v with
    | error r =>
        rw [s.exchange_of_rejection authenticated hcall]
        exact (Json.isNotification_of_rejection hcall).symm
    | ok c =>
        obtain ⟨r, st', called, -, hx⟩ := s.exchange_of_call authenticated hcall st
        rw [hx]
        exact Call.isNotification_eq hcall
  refine ⟨hreply, ?_⟩
  intro i hi
  rw [hreply]
  rcases s.exchange_quiet_or_called authenticated v st with ⟨-, hnone⟩ | ⟨c, m, hcall, -, hcalled⟩
  · rw [hnone] at hi
    exact nomatch hi
  · -- the handler is told the id and the version of the call
    rw [hcalled] at hi
    obtain rfl := List.mem_singleton.mp hi
    exact Call.isNotification_eq hcall

end Service

/-! ## What is sent back -/

namespace Replies

/-- No reply is wanted exactly if all of them are to notifications. -/
theorem wanted_eq_nil_iff (o : Replies) : o.wanted = [] ↔ o.isNotification = true := by
  unfold wanted isNotification
  rw [List.map_eq_nil_iff, List.filter_eq_nil_iff, List.all_eq_true]
  simp only [Bool.not_eq_true', Bool.not_eq_false]

/-- Nothing is sent back exactly if no answer is wanted. -/
theorem replyBody?_eq_none_iff (o : Replies) : o.replyBody? = none ↔ o.isNotification = true := by
  rw [← wanted_eq_nil_iff]
  unfold replyBody? wantedJson?
  cases o.wanted with
  | nil => exact ⟨fun _ => rfl, fun _ => rfl⟩
  | cons r rest => exact ⟨nofun, nofun⟩

/-- If an answer is wanted, it is the body that holds the responses that are wanted. -/
theorem replyBody?_of_wanted {o : Replies} (h : o.isNotification = false) :
    o.replyBody? = some (bodyOf o.isBatch o.wanted).render := by
  have hne : o.wanted ≠ [] := by
    intro hnil
    exact nomatch h.symm.trans (o.wanted_eq_nil_iff.mp hnil)
  unfold replyBody? wantedJson?
  cases hwanted : o.wanted with
  | nil => exact absurd hwanted hne
  | cons r rest => rfl

/-- A lone reply that is wanted is sent back as it is. -/
theorem replyBody?_single {r : Reply} (h : r.isNotification = false) :
    (single r).replyBody? = some (single r).body := by
  rw [replyBody?_of_wanted (show (single r).isNotification = false by
    simpa [isNotification, single] using h)]
  show some (bodyOf false (([r].filter fun r => !r.isNotification).map _)).render = _
  rw [List.filter_singleton, h]
  rfl

/-- Of a batch the responses that are wanted are sent back in an array. -/
theorem replyBody?_batch {rs : List Reply} (h : (Replies.mk rs true).isNotification = false) :
    (Replies.mk rs true).replyBody?
      = some (Json.arr ((rs.filter fun r => !r.isNotification).map
          fun r => r.response.toJson)).render := by
  rw [replyBody?_of_wanted h, bodyOf_batch]
  unfold wanted
  rw [List.map_map]
  rfl

end Replies

/-! ## Bodies -/

namespace Service

variable (s : Service σ) (authenticated : Bool)

/-- The exchanges of a body are marked as its envelopes say. -/
theorem exchangesOf_marked (body : ByteArray) (st : σ) :
    ∀ x ∈ s.exchangesOf authenticated body st, x.Marked :=
  s.forall_exchanges authenticated (s.exchange_marked authenticated) _ st

/-- The mark on the replies to a body that holds envelopes. -/
theorem answer_isNotification_of_decode {body : ByteArray} {b : Body}
    (h : Body.decode body = .ok b) (st : σ) :
    ((s.answer body authenticated).value st).isNotification
      = (Body.envelopes (.ok b)).all Json.isNotification := by
  have henvelopes : (s.exchangesOf authenticated body st).map Exchange.envelope
      = Body.envelopes (.ok b) := by
    rw [← h]
    exact s.exchanges_envelope authenticated _ st
  unfold Replies.isNotification
  rw [s.answer_replies authenticated h, ← henvelopes, List.all_map, List.all_map,
    Bool.eq_iff_iff, List.all_eq_true, List.all_eq_true]
  refine forall₂_congr ?_
  intro x hx
  show x.reply.isNotification = true ↔ x.envelope.isNotification = true
  rw [(s.exchangesOf_marked authenticated body st x hx).reply]

/-- The mark on the replies to a body. -/
theorem answer_isNotification (body : ByteArray) (st : σ) :
    ((s.answer body authenticated).value st).isNotification
      = Body.wantsNoAnswer (Json.ofBytes? body) := by
  cases hbody : Json.ofBytes? body with
  | none =>
      rw [s.answer_of_undecodable authenticated (Body.decode_of_none hbody)]
      rfl
  | some v =>
      have hdecode := Body.decode_of_some hbody
      match v with
      | .arr [] =>
          rw [s.answer_of_undecodable authenticated hdecode]
          rfl
      | .arr (item :: items) => exact s.answer_isNotification_of_decode authenticated hdecode st
      | .null | .bool _ | .num _ | .str _ | .obj _ =>
          rw [s.answer_isNotification_of_decode authenticated hdecode]
          exact Bool.and_true _

/-- A body that is not a batch gets one reply, and it is sent back as it is if it is wanted. -/
theorem replyBody?_of_not_batch {body : ByteArray} {reply : Reply} (st : σ)
    (h : (s.answer body authenticated).value st = .single reply)
    (hwanted : Body.wantsNoAnswer (Json.ofBytes? body) = false) :
    ((s.answer body authenticated).value st).replyBody?
      = some ((s.answer body authenticated).value st).body := by
  rw [← s.answer_isNotification authenticated body st, h] at hwanted
  rw [h]
  exact Replies.replyBody?_single ((Bool.and_true _).symm.trans hwanted)

/-- Of the replies to a batch the ones are sent back, in an array, whose envelopes are no
    notifications. -/
theorem replyBody?_of_batch {body : ByteArray} {items : List Json}
    (hdecode : Body.decode body = .ok (.batch items)) (st : σ)
    (hwanted : Body.wantsNoAnswer (Json.ofBytes? body) = false) :
    ((s.answer body authenticated).value st).replyBody?
      = some (Json.arr (((s.exchangesOf authenticated body st).filter
          fun x => !x.envelope.isNotification).map Exchange.response)).render := by
  have hvalue : (s.answer body authenticated).value st
      = ⟨(s.exchangesOf authenticated body st).map Exchange.reply, true⟩ := by
    rw [s.answer_of_batch authenticated hdecode, exchangesOf, hdecode]
    rfl
  have hsame : (s.exchangesOf authenticated body st).filter (fun x => !x.reply.isNotification)
      = (s.exchangesOf authenticated body st).filter (fun x => !x.envelope.isNotification) := by
    refine List.filter_congr ?_
    intro x hx
    rw [(s.exchangesOf_marked authenticated body st x hx).reply]
  rw [← s.answer_isNotification authenticated body st, hvalue] at hwanted
  rw [hvalue, Replies.replyBody?_batch hwanted, List.filter_map, List.map_map, ← hsame]
  rfl

/-- Nothing is sent back to a body exactly if it is a notification or a batch of nothing but
    notifications, and this is what the mark on its replies says. Otherwise, the answer to a batch
    is the array of the responses to its envelopes, in order, and those to notifications are taken
    out of what is sent back; any other answer is sent back as it is, which goes for bodies of
    which nothing can be made and for envelopes that are no request.

    Whether an envelope is a notification is for the envelope alone to say, however the exchange
    ends, and a handler that is called is told the same. -/
theorem reply_sent_iff_wanted (body : ByteArray) (st : σ) :
    (((s.answer body authenticated).value st).replyBody? = none
        ↔ Body.wantsNoAnswer (Json.ofBytes? body) = true)
      ∧ (((s.answer body authenticated).value st).isNotification = true
        ↔ Body.wantsNoAnswer (Json.ofBytes? body) = true)
      ∧ ∃ xs, s.ComesTo authenticated body st xs ∧ (∀ x ∈ xs, x.Marked)
        ∧ (Body.wantsNoAnswer (Json.ofBytes? body) = false → match Json.ofBytes? body with
          | some (.arr (v :: rest)) => xs.map Exchange.envelope = v :: rest
              ∧ ((s.answer body authenticated).value st).body
                = (Json.arr (xs.map Exchange.response)).render
              ∧ ((s.answer body authenticated).value st).replyBody?
                = some (Json.arr ((xs.filter fun x => !x.envelope.isNotification).map
                    Exchange.response)).render
          | _ => ((s.answer body authenticated).value st).replyBody?
              = some ((s.answer body authenticated).value st).body) := by
  have hmark := s.answer_isNotification authenticated body st
  refine ⟨?_, by rw [hmark], s.exchangesOf authenticated body st,
    s.comesTo_exchangesOf authenticated body st, s.exchangesOf_marked authenticated body st, ?_⟩
  · rw [Replies.replyBody?_eq_none_iff, hmark]
  · intro hwanted
    -- outside of a batch the one reply is sent as it is
    have hlone {reply : Reply} (h : (s.answer body authenticated).value st = .single reply) :=
      s.replyBody?_of_not_batch authenticated st h hwanted
    cases hbody : Json.ofBytes? body with
    | none => exact hlone (s.answer_of_undecodable authenticated (Body.decode_of_none hbody) st)
    | some v =>
        have hdecode := Body.decode_of_some hbody
        match v with
        | .arr [] => exact hlone (s.answer_of_undecodable authenticated hdecode st)
        | .arr (item :: items) =>
            have hxs : s.exchangesOf authenticated body st
                = s.exchanges authenticated (item :: items) st := by
              rw [exchangesOf, hdecode]
              rfl
            refine ⟨?_, ?_, s.replyBody?_of_batch authenticated hdecode st hwanted⟩
            · rw [hxs, s.exchanges_envelope authenticated]
            · show Json.render (Replies.toJson _) = _
              rw [s.answer_of_batch authenticated hdecode, Replies.toJson_batch, List.map_map, hxs]
              rfl
        | .null | .bool _ | .num _ | .str _ | .obj _ =>
            exact hlone (s.answer_of_single authenticated hdecode st)

end Service

/-- Two calls of the counting method, of which only the second wants an answer. -/
def bumpTwice : ByteArray :=
  "[\x7b\"method\":\"bump\"\x7d,\x7b\"id\":7,\"method\":\"bump\"\x7d]".toUTF8

/-- A stranger who makes both is turned away twice and told so once, in an array all the same. -/
theorem stranger_told_once :
    Body.wantsNoAnswer (Json.ofBytes? bumpTwice) = false
      ∧ ((countingService.answer bumpTwice false).value 5).replyBody?
        = some ("[\x7b\"error\":\x7b\"code\":401,\"message\":\"Authentication required\"," ++
          "\"data\":\x7b\"method\":\"bump\"\x7d\x7d,\"id\":7\x7d]")
      ∧ ∃ x y, countingService.ComesTo false bumpTwice 5 [x, y]
        ∧ x.envelope.isNotification = true ∧ y.envelope.isNotification = false
        ∧ ((countingService.answer bumpTwice false).value 5).body
          = (Json.arr [x.response, y.response]).render
        ∧ ((countingService.answer bumpTwice false).value 5).replyBody?
          = some (Json.arr [y.response]).render := by
  have hheld : Json.ofBytes? bumpTwice = some (.arr [.obj [("method", .str "bump")],
      .obj [("id", .num (.int 7)), ("method", .str "bump")]]) := by decide +kernel
  have hwanted : Body.wantsNoAnswer (Json.ofBytes? bumpTwice) = false := by
    rw [hheld]
    rfl
  obtain ⟨-, -, xs, hcomes, -, hsent⟩ := countingService.reply_sent_iff_wanted false bumpTwice 5
  have hbatch := hsent hwanted
  rw [hheld] at hbatch
  obtain ⟨henvelopes, hbody, hreply⟩ := hbatch
  obtain ⟨x, y, rfl, hx, hy⟩ := Exchange.eq_pair_of_envelopes henvelopes
  have hxmark : x.envelope.isNotification = true := by
    rw [hx]
    rfl
  have hymark : y.envelope.isNotification = false := by
    rw [hy]
    rfl
  refine ⟨hwanted, by decide +kernel, x, y, hcomes, hxmark, hymark, hbody, ?_⟩
  rw [hreply]
  simp [hxmark, hymark]

end Switchboard
