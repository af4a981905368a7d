import Switchboard.Proofs.Exchange
import Switchboard.Proofs.ReadBack

/-!
# Batches as runs of single bodies

A batch is a way to send several envelopes at once and nothing more: the
service answers it as it answers the envelopes sent one after the other, each
in a body of its own. The replies are the same, in the same order, and so is
the state of the application afterwards. Since nothing of an earlier answer
but the state is there when a later one is given, no envelope can disturb the
answer to another.

The two ways part at one shape. An array in a body of its own is a batch, and
inside a batch it is an envelope that is no request. Batches therefore do not
nest: what stands in an inner array is not looked at.
-/

namespace Switchboard

variable {σ : Type}

/-- The bytes of a body hold a value. -/
def Holds (body : ByteArray) (v : Json) : Prop := Json.ofBytes? body = some v

/-- What is not an array is an envelope on its own. -/
theorem Body.ofJson_of_not_array {v : Json} (hv : Kind.of v ≠ .array) :
    Body.ofJson v = .ok (.single v) := by
  cases v with
  | arr items => exact absurd rfl hv
  | null | bool _ | num _ | str _ | obj _ => rfl

/-- An array that is not empty is a batch of its items. -/
theorem Body.ofJson_of_items {items : List Json} (hitems : items ≠ []) :
    Body.ofJson (.arr items) = .ok (.batch items) := by
  cases items with
  | nil => exact absurd rfl hitems
  | cons v rest => rfl

/-! ## Texts of batches -/

theorem Json.depth_le_itemsDepth {items : List Json} {v : Json} (hv : v ∈ items) :
    v.depth ≤ Json.itemsDepth items := by
  induction items with
  | nil => exact nomatch hv
  | cons w rest ih =>
      show v.depth ≤ max w.depth (Json.itemsDepth rest)
      rcases List.mem_cons.mp hv with rfl | hrest
      · exact le_max_left _ _
      · exact (ih hrest).trans (le_max_right _ _)

/-- Values that can be sent as one batch can be sent one by one. -/
theorem holds_batch_and_items {items : List Json} (hvalid : ∀ v ∈ items, v.Valid)
    (hdepth : (Json.arr items).depth ≤ Reader.maxDepth) :
    Holds (Json.arr items).render.toUTF8 (.arr items)
      ∧ List.Forall₂ Holds (items.map fun v => v.render.toUTF8) items := by
  refine ⟨(Json.Valid.arr hvalid).ofBytes?_toUTF8 hdepth, ?_⟩
  rw [List.forall₂_map_left_iff, List.forall₂_same]
  intro v hv
  have hinner : v.depth + 1 ≤ (Json.arr items).depth :=
    Nat.succ_le_succ (Json.depth_le_itemsDepth hv)
  exact (hvalid v hv).ofBytes?_toUTF8 (by omega)

namespace Service

variable (s : Service σ) (authenticated : Bool)

/-! ## Bodies in a row -/

/-- Answers bodies in order, each by itself. -/
def answerEach : List ByteArray → Act σ (List Replies)
  | [] => Act.pure []
  | body :: rest => do
    let o ← s.answer body authenticated
    let os ← answerEach rest
    return o :: os

/-- A body with one envelope comes to the exchange for it. -/
theorem answer_alone {body : ByteArray} {v : Json} (hbody : Holds body v)
    (hv : Kind.of v ≠ .array) (st : σ) :
    (s.answer body authenticated).value st = .single (s.exchange authenticated v st).reply
      ∧ (s.answer body authenticated).after st = (s.exchange authenticated v st).after := by
  have hdecode : Body.decode body = .ok (.single v) :=
    (Body.decode_of_some hbody).trans (Body.ofJson_of_not_array hv)
  constructor
  · exact s.answer_of_single authenticated hdecode st
  · rw [answer_after_eq_answerAll, hdecode]
    exact s.answerAll_after authenticated [v] st

/-- Bodies with one envelope each come to the exchanges for them, each in the state that the one
    before left. -/
theorem answerEach_alone {bodies : List ByteArray} {items : List Json}
    (hbodies : List.Forall₂ Holds bodies items) (hitems : ∀ v ∈ items, Kind.of v ≠ .array)
    (st : σ) :
    (s.answerEach authenticated bodies).value st
        = (s.exchanges authenticated items st).map (fun x => .single x.reply)
      ∧ (s.answerEach authenticated bodies).after st
        = Exchange.last st (s.exchanges authenticated items st) := by
  induction hbodies generalizing st with
  | nil => exact ⟨rfl, rfl⟩
  | @cons body v bodies rest hbody _ ih =>
      obtain ⟨hv, hrest⟩ := List.forall_mem_cons.mp hitems
      -- the other bodies begin in the state that this one leaves
      obtain ⟨hvalue, hafter⟩ := s.answer_alone authenticated hbody hv st
      obtain ⟨hvalues, hlast⟩ := ih hrest (s.exchange authenticated v st).after
      constructor
      · show (s.answer body authenticated).value st
          :: (s.answerEach authenticated bodies).value ((s.answer body authenticated).after st) = _
        rw [hvalue, hafter, hvalues]
        rfl
      · show (s.answerEach authenticated bodies).after
          ((s.answer body authenticated).after st) = _
        rw [hafter, hlast]
        rfl

/-! ## Envelopes that do nothing -/

/-- The state changes only in handlers. -/
theorem exchange_after_of_no_invocation (v : Json) (st : σ)
    (hnone : (s.exchange authenticated v st).invocations = []) :
    (s.exchange authenticated v st).after = st := by
  rcases s.exchange_quiet_or_called authenticated v st with ⟨hafter, -⟩ | ⟨c, m, -, -, hcalled⟩
  · exact hafter
  · exact nomatch hnone.symm.trans hcalled

/-- The reply to an array inside a batch. -/
def nestedBatchReply : Reply where
  response := ⟨none, none, some ⟨-32600, "Request must be an object, got Array", none⟩, .null⟩
  isNotification := false

/-- An array inside a batch is no request, whatever is in it. -/
theorem exchange_of_array {v : Json} (hv : Kind.of v = .array) (st : σ) :
    (s.exchange authenticated v st).reply = nestedBatchReply
      ∧ (s.exchange authenticated v st).invocations = [] := by
  cases v with
  | arr inner =>
      rw [s.exchange_of_rejection authenticated
        (show Call.ofJson (.arr inner) = .error ⟨.notAnObject .array, .v1, .null⟩ from rfl)]
      exact ⟨rfl, rfl⟩
  | null | bool _ | num _ | str _ | obj _ => exact nomatch hv

/-! ## Batches -/

/-- A batch is a run of exchanges, one for each of its envelopes. -/
theorem answer_batch {items : List Json} (hitems : items ≠ []) {batch : ByteArray}
    (hbatch : Holds batch (.arr items)) (st : σ) :
    s.exchangesOf authenticated batch st = s.exchanges authenticated items st
      ∧ (s.answer batch authenticated).value st
        = ⟨(s.exchanges authenticated items st).map Exchange.reply, true⟩
      ∧ (s.answer batch authenticated).after st
        = Exchange.last st (s.exchanges authenticated items st) := by
  have hdecode : Body.decode batch = .ok (.batch items) :=
    (Body.decode_of_some hbatch).trans (Body.ofJson_of_items hitems)
  have hxs : s.exchangesOf authenticated batch st = s.exchanges authenticated items st := by
    unfold exchangesOf
    rw [hdecode]
    rfl
  refine ⟨hxs, s.answer_of_batch authenticated hdecode st, ?_⟩
  rw [answer_after, hxs]

/-- A batch is answered as its envelopes are, each in a body of its own, one after the other:
    with the same replies in the same order, and with the same state afterwards. This is so unless
    an envelope is an array; every list of values that can be sent as a batch can be sent in both
    ways.

    With arrays or without, a batch comes to one exchange for each of its envelopes, in order. An
    exchange that calls no handler leaves the state to the next one as it was. An array in a batch
    is told that it is no request, and no handler is called for what is in it. -/
theorem batch_answered_one_by_one {items : List Json} (hitems : items ≠ []) (st : σ) :
    ((∀ v ∈ items, v.Valid) → (Json.arr items).depth ≤ Reader.maxDepth →
        Holds (Json.arr items).render.toUTF8 (.arr items)
          ∧ List.Forall₂ Holds (items.map fun v => v.render.toUTF8) items)
      ∧ ∀ batch, Holds batch (.arr items) →
        (∀ bodies, List.Forall₂ Holds bodies items → (∀ v ∈ items, Kind.of v ≠ .array) →
          ((s.answer batch authenticated).value st).replies
              = ((s.answerEach authenticated bodies).value st).flatMap Replies.replies
            ∧ (s.answer batch authenticated).after st
              = (s.answerEach authenticated bodies).after st)
        ∧ ((s.answer batch authenticated).value st).isBatch = true
        ∧ ∃ xs, s.ComesTo authenticated batch st xs ∧ xs.map Exchange.envelope = items
          ∧ ((s.answer batch authenticated).value st).replies = xs.map Exchange.reply
          ∧ ∀ x ∈ xs, (x.invocations = [] → x.after = x.before)
            ∧ (Kind.of x.envelope = .array →
                x.reply = nestedBatchReply ∧ x.after = x.before ∧ x.invocations = []) := by
  refine ⟨holds_batch_and_items, ?_⟩
  intro batch hbatch
  obtain ⟨hxs, hvalue, hafter⟩ := s.answer_batch authenticated hitems hbatch st
  refine ⟨?_, by rw [hvalue], s.exchanges authenticated items st,
    hxs ▸ s.comesTo_exchangesOf authenticated batch st,
    s.exchanges_envelope authenticated items st, by rw [hvalue], ?_⟩
  · intro bodies hbodies hplain
    obtain ⟨hvalues, hlast⟩ := s.answerEach_alone authenticated hbodies hplain st
    rw [hvalue, hafter, hvalues, hlast, List.flatMap_map]
    exact ⟨List.map_eq_flatMap, rfl⟩
  · refine s.forall_exchanges authenticated ?_ items st
    intro v st'
    have hstays := s.exchange_after_of_no_invocation authenticated v st'
    refine ⟨hstays, ?_⟩
    intro hv
    obtain ⟨hreply, hnone⟩ := s.exchange_of_array authenticated hv st'
    exact ⟨hreply, hstays hnone, hnone⟩

end Service

/-- A service that counts the calls of one method and panics in another. -/
def tallyService : Service Nat where
  table := ⟨[
    Method.make (.wildcard "boom") (fun _ _ n => (.panic (some "boom"), n + 10)) {},
    Method.make (.wildcard "tick") (fun _ _ n => (.value (.ofInt n), n + 1)) {}]⟩

/-- No request, a panic behind a change of the state, a notification and a call. -/
def tallyItems : List Json :=
  [.num (.int 1), .obj [("id", .num (.int 2)), ("method", .str "boom")],
    .obj [("method", .str "tick")], .obj [("id", .num (.int 4)), ("method", .str "tick")]]

/-- The tally sees the same calls in the same order, however they are sent; and a tick inside an
    inner array is no call. -/
theorem tally_batch_one_by_one :
    tallyItems ≠ []
      ∧ (∃ batch bodies, Holds batch (.arr tallyItems)
        ∧ List.Forall₂ Holds bodies tallyItems ∧ (∀ v ∈ tallyItems, Kind.of v ≠ .array)
        ∧ ((tallyService.answer batch false).value 0).replies
            = ((tallyService.answerEach false bodies).value 0).flatMap Replies.replies
        ∧ (tallyService.answer batch false).after 0 = (tallyService.answerEach false bodies).after 0
        ∧ (tallyService.answer batch false).after 0 = 12)
      ∧ ∃ batch, Holds batch (.arr [.arr tallyItems])
        ∧ ((tallyService.answer batch false).value 0).replies = [Service.nestedBatchReply]
        ∧ (tallyService.answer batch false).after 0 = 0
        ∧ tallyService.invocations false batch 0 = [] := by
  have hvalid : ∀ v ∈ tallyItems, v.Valid := by
    have hmethod (name : String) : Json.Valid (.obj [("method", .str name)]) :=
      .obj (List.pairwise_singleton _ _) (List.forall_mem_singleton.mpr (.str name))
    have hcall (id : Json) (hid : id.Valid) (name : String) :
        Json.Valid (.obj [("id", id), ("method", .str name)]) := by
      refine .obj (Members.sorted_of_keys ?_) ?_
      · show List.Pairwise _ ["id", "method"]
        decide
      · exact List.forall_mem_cons.mpr ⟨hid, List.forall_mem_singleton.mpr (.str name)⟩
    have hid (n : Int) (hn : Number.isExact n = true) : Json.Valid (.num (.int n)) := .num hn
    simpa [tallyItems] using ⟨hid 1 rfl, hcall _ (hid 2 rfl) "boom", hmethod "tick",
      hcall _ (hid 4 rfl) "tick"⟩
  have hplain : ∀ v ∈ tallyItems, Kind.of v ≠ .array := by decide
  obtain ⟨hholds, hbatch⟩ := tallyService.batch_answered_one_by_one false
    (show tallyItems ≠ [] by decide) 0
  obtain ⟨hnestedHolds, hnested⟩ := tallyService.batch_answered_one_by_one false
    (show [Json.arr tallyItems] ≠ [] by decide) 0
  obtain ⟨hall, heach⟩ := hholds hvalid (by decide)
  obtain ⟨hreplies, hstate⟩ := (hbatch _ hall).1 _ heach hplain
  have hnestedHeld := (hnestedHolds
    (List.forall_mem_singleton.mpr (.arr hvalid)) (by decide)).1
  obtain ⟨-, xs, hcomes, henvelopes, hnestedReplies, hxs⟩ := (hnested _ hnestedHeld).2
  -- one envelope, so one exchange
  obtain ⟨x, rfl, hx⟩ := List.map_eq_singleton_iff.mp henvelopes
  obtain ⟨hreply, hstays, hnone⟩ := (hxs x List.mem_cons_self).2 (by rw [hx]; rfl)
  refine ⟨by decide, ⟨_, _, hall, heach, hplain, hreplies, hstate, by decide +kernel⟩,
    _, hnestedHeld, ?_, by decide +kernel, ?_⟩
  · rw [hnestedReplies, ← hreply]
    rfl
  · rw [hcomes.invocations, List.flatMap_singleton, hnone]

end Switchboard
