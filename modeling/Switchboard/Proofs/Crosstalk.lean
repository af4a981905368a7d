import Switchboard.Proofs.Links

/-!
# No crosstalk on a shared link

The frames on a link carry nothing that tells which reply belongs to which
call: the ids are of no use, since several clients use the same ones. A task
takes the next frame for its reply, and this is right because the calls are
counted twice. `SharedLink.Sound` counts them as they are written, and the
server, which answers in order and leaves out what is no call, counts them by
its replies. Both counts give the same numbers (`Sound.places_of_replies`), so
the reply that is read for a call is the one that came of its body.
-/

namespace Switchboard

variable {σ : Type}

namespace SharedLink

variable {service : Service σ} {verdict : Bool} {s : SharedLink σ} {actions : List Action}
  {versions : List Version} {st : σ}

/-! ## Which reply is whose -/

/-- The bodies for the errands that are begun can be read, as far as clients of the versions prepare
    any. -/
def AllReadable (actions : List Action) (versions : List Version) : Prop :=
  ∀ i p e version, Action.begin i p e ∈ actions → versions[p]? = some version →
    Client.check version e.params = .ok () → e.Readable

/-- A body has been prepared by some client, and is read as what was meant by it. -/
theorem Begun.exists_readAs {b : Posted} (hb : Begun actions versions b)
    (hreadable : AllReadable actions versions) :
    ∃ p e c, Action.begin b.task p e ∈ actions ∧ versions[p]? = some c.version ∧
      Client.Prepares c e b.sent ∧ Client.ReadAs b.frame.body (c.meant e) := by
  obtain ⟨p, e, c, next, ha, hversion, hprepare⟩ := hb
  have hprepares := (Client.prepares_of_prepare hprepare).1
  exact ⟨p, e, c, ha, hversion, hprepares,
    hprepares.readAs (hreadable _ p e _ ha hversion hprepares.check_eq)⟩

/-- A frame gets a reply exactly if its body is that of a call. -/
theorem Begun.isSome_reply {b : Posted} (hb : Begun actions versions b)
    (hreadable : AllReadable actions versions) {h : Handling σ} (hh : service.Handles verdict h)
    (hframe : h.frame = b.frame) : h.reply?.isSome = b.call?.isSome := by
  obtain ⟨p, e, c, -, -, hprepares, hread⟩ := hb.exists_readAs hreadable
  rw [← hframe] at hread
  have hreply : h.reply? = (service.answerFrame verdict h.frame).value h.before := hh.reply
  rw [hreply, service.answerFrame_of_readAs verdict hread, hprepares.isNotification_meant]
  unfold Posted.call?
  cases b.sent.id? with
  | none => rfl
  | some id => rfl

section Matching

variable (hs : s.Sound service verdict actions versions st)
  (hreadable : AllReadable actions versions)

include hs

/-- The calls that have been written: those that have got their replies, and perhaps one more. -/
theorem Sound.exists_awaited : ∃ awaited : List (Nat × Nat × Id),
    numbered Posted.call? s.written = s.delivered.map Delivery.call ++ awaited ∧
      (∀ x ∈ awaited, s.tasks[x.2.1]? = some (.reading x.2.2 x.1)) ∧
      (s.Quiet → awaited = []) := by
  by_cases hquiet : s.Quiet
  · refine ⟨[], ?_, nofun, fun _ => rfl⟩
    rw [List.append_nil]
    exact hs.quiet hquiet
  · unfold Quiet at hquiet
    push Not at hquiet
    obtain ⟨i, id, k, hi⟩ := hquiet
    exact ⟨[(k, i, id)], hs.calling i _ hi id k rfl, List.forall_mem_singleton.mpr hi,
      fun h => absurd hi (h i id k)⟩

/-- The body that a delivery is about. -/
theorem Sound.written_of_mem_delivered {d : Delivery} (hd : d ∈ s.delivered) :
    ∃ body, s.written[d.asked]? = some ⟨d.task, .call d.id body⟩ := by
  obtain ⟨awaited, hcalls, -, -⟩ := hs.exists_awaited
  have hmem : d.call ∈ numbered Posted.call? s.written := by
    rw [hcalls]
    exact List.mem_append_left _ (List.mem_map_of_mem hd)
  obtain ⟨⟨task, sent⟩, hwritten, hcall⟩ := mem_numbered.mp hmem
  cases sent with
  | notification body => exact nomatch hcall
  | call id body =>
      obtain ⟨rfl, rfl⟩ := Prod.mk.inj (Option.some.inj hcall)
      exact ⟨body, hwritten⟩

include hreadable

/-- The replies are to the calls among the bodies that have been handled. -/
theorem Sound.places_of_replies :
    (numbered Handling.reply? (service.handlings verdict s.server.handled st)).map Prod.fst
      = (numbered Posted.call? (s.written.take s.server.handled.length)).map Prod.fst := by
  have hframes : (service.handlings verdict s.server.handled st).map Handling.frame
      = (s.written.take s.server.handled.length).map Posted.frame := by
    rw [service.handlings_frame verdict, List.map_take, ← hs.order.frames, List.take_left]
  refine map_fst_numbered_congr (map_eq_map_of_map_eq hframes ?_)
  intro h hh b hb hframe
  exact (hs.written b (List.mem_of_mem_take hb)).isSome_reply hreadable
    (service.handlings_handles verdict _ st h hh) hframe

/-- The replies come in the order of the calls that have been written. -/
theorem Sound.places_prefix :
    (numbered Handling.reply? (service.handlings verdict s.server.handled st)).map Prod.fst
      <+: (numbered Posted.call? s.written).map Prod.fst := by
  rw [hs.places_of_replies hreadable]
  have hprefix := numbered_append Posted.call? (s.written.take s.server.handled.length)
    (s.written.drop s.server.handled.length)
  rw [List.take_append_drop] at hprefix
  exact hprefix.map Prod.fst

omit hreadable in
/-- What the server has written is what has been read, and what is unread. -/
theorem Sound.stream_eq : s.server.written = s.delivered.map Delivery.reply ++ s.unread := by
  have hstream := List.prefix_iff_eq_append.mp hs.stream
  rw [List.length_map] at hstream
  exact hstream.symm

omit hreadable in
/-- The replies of the server are those that have been read, then those that have not been, then
    those that are still to be written. -/
theorem Sound.replies_eq :
    (numbered Handling.reply? (service.handlings verdict s.server.handled st)).map Prod.snd
      = s.delivered.map Delivery.reply ++ (s.unread ++ s.server.channel) := by
  rw [map_snd_numbered, ← service.answerFrames_value verdict, ← hs.order.replies, hs.stream_eq,
    List.append_assoc]

/-- Every reply that has been read is the one to the body of its call. -/
theorem Sound.delivered_prefix :
    s.delivered.map (fun d => (d.asked, d.reply))
      <+: numbered Handling.reply? (service.handlings verdict s.server.handled st) := by
  obtain ⟨awaited, hcalls, -, -⟩ := hs.exists_awaited
  have hplaces := hs.places_prefix hreadable
  rw [hcalls, List.map_append, List.map_map] at hplaces
  exact prefix_of_halves hs.replies_eq hplaces

/-- There are no more replies than calls. -/
theorem Sound.length_unread_le {awaited : List (Nat × Nat × Id)}
    (hcalls : numbered Posted.call? s.written = s.delivered.map Delivery.call ++ awaited) :
    (s.unread ++ s.server.channel).length ≤ awaited.length := by
  have hplaces := (hs.places_prefix hreadable).length_le
  have hreplies := congrArg List.length (hs.replies_eq)
  rw [hcalls] at hplaces
  simp only [List.length_map, List.length_append] at hplaces hreplies ⊢
  omega

/-- A task that waits for its reply can read it, or the server has something to do. -/
theorem Sound.unread_or_served {i k : Nat} {id : Id}
    (hi : s.tasks[i]? = some (.reading id k)) :
    (∃ reply rest, s.unread = reply :: rest) ∨
      ∃ a, a ≠ .failWrite ∧ (Serving.step? service verdict s.server a).isSome = true := by
  have hwriting := hs.order.isWriting_of_reading hs.opened.reading
  by_cases hunread : s.unread = []
  · refine Or.inr ?_
    by_cases hchannel : s.server.channel = []
    · refine ⟨.read, nofun, Serving.isSome_step?_read hs.opened.reading ?_⟩
      intro hin
      -- all bodies have been handled, so the call that is waited for has its reply
      have hframes := hs.order.frames_of_reading hs.opened.reading
      rw [hin] at hframes
      have hlength : s.server.handled.length = s.written.length := by
        simpa [Incoming.frames] using congrArg List.length hframes
      have hplaces := congrArg List.length (hs.places_of_replies hreadable)
      have hreplies := congrArg List.length hs.replies_eq
      rw [hlength, List.take_length, hs.calling i _ hi id k rfl] at hplaces
      rw [hunread, hchannel] at hreplies
      simp only [List.length_map, List.length_append, List.length_nil, List.length_singleton]
        at hplaces hreplies
      omega
    · exact ⟨.write, nofun, Serving.isSome_step?_write hwriting hchannel⟩
  · exact Or.inl (List.exists_cons_of_ne_nil hunread)

end Matching

/-- A task that waits for its reply gets one once the server has done what there is to do. -/
theorem Sound.exists_reply (hs : s.Sound service verdict actions versions st)
    (hreadable : AllReadable actions versions) (hfailed : s.server.hasFailed = false) {i k : Nat}
    {id : Id} (hi : s.tasks[i]? = some (.reading id k)) :
    ∃ (work : List Serving.Action) (t : SharedLink σ) (reply : Frame),
      run? service verdict (work.map .serve ++ [.read i]) s = some t ∧
        t.server.hasFailed = false ∧ t.delivered = s.delivered ++ [⟨i, id, k, reply⟩] := by
  -- every step of the server leaves it with less to do
  induction hload : s.server.load using Nat.strong_induction_on generalizing s with
  | _ n ih =>
      subst hload
      rcases hs.unread_or_served hreadable hi with ⟨reply, rest, hunread⟩ | ⟨a, ha, hsome⟩
      · refine ⟨[], { s.setTask i .idle with
            owner? := none
            delivered := s.delivered ++ [⟨i, id, k, reply⟩] }, reply, ?_, hfailed, rfl⟩
        show (step? service verdict s (.read i)).bind _ = _
        simp only [step?, hi, hunread]
        rfl
      · obtain ⟨c, hc⟩ := Option.isSome_iff_exists.mp hsome
        have hserved := Serving.step_of_step? hc
        have hfailed' : c.hasFailed = false := (hserved.hasFailed_eq ha).trans hfailed
        obtain ⟨work, t, reply, hrun, ht, hdelivered⟩ :=
          ih c.load hserved.load_lt (hs.served hserved hfailed') hfailed' hi rfl
        refine ⟨a :: work, t, reply, ?_, ht, hdelivered⟩
        show ((Serving.step? service verdict s.server a).map _).bind _ = _
        rw [hc]
        exact hrun

end SharedLink

/-! ## No crosstalk -/

/-- A reply belongs to the call that it has been read for. The task has begun the call through a
    client of a version and has written the body for it, and the reply is the one that came of this
    body: the response to the call that was meant. -/
def Delivery.Own (service : Service σ) (verdict : Bool) (actions : List SharedLink.Action)
    (versions : List Version) (written : List Posted) (hs : List (Handling σ))
    (d : Delivery) : Prop :=
  ∃ p version method params h,
    SharedLink.Action.begin d.task p (.call method params) ∈ actions ∧ versions[p]? = some version ∧
      written[d.asked]? = some ⟨d.task, .call d.id (Client.callBody version method params d.id)⟩ ∧
      hs[d.asked]? = some h ∧
      h.frame = .text (Client.callBody version method params d.id) ∧ h.reply? = some d.reply ∧
      d.reply = .text ((service.answerCall ⟨version, method, params, some d.id⟩ verdict).value
        h.before).encode.toUTF8

namespace SharedLink

/-- Nothing has got mixed up on a link. The server makes something of each body in the order in
    which the bodies are written, and puts its replies on the stream in this order (`served`,
    `arrived`). Every reply that has been read belongs to its call (`own`); no call gets two
    (`once`), and no reply is read twice or skipped (`stream`). A call that has been written has
    its reply, or its task waits for it (`calls`); if no call is in progress, no reply is left
    (`settled`); and no reply is made or read for a notification (`notifications`). A task that
    waits gets its reply once the server has done what there is to do (`replied`). -/
structure Untangled (service : Service σ) (verdict : Bool) (actions : List Action)
    (versions : List Version) (st : σ) (s : SharedLink σ) (hs : List (Handling σ)) : Prop where
  served : service.FramesComeTo verdict s.server.handled st (s.server.written ++ s.server.channel)
    s.server.state hs
  arrived : s.server.handled ++ s.server.pending = s.written.map Posted.frame
  own : ∀ d ∈ s.delivered, d.Own service verdict actions versions s.written hs
  once : (s.delivered.map Delivery.asked).Pairwise (· < ·)
  stream : s.server.written = s.delivered.map Delivery.reply ++ s.unread
  calls : ∀ k i id body, s.written[k]? = some ⟨i, .call id body⟩ →
    (∃ d ∈ s.delivered, d.asked = k ∧ d.task = i ∧ d.id = id) ∨
      s.tasks[i]? = some (.reading id k)
  settled : s.isCalling = false → s.unread = [] ∧ s.server.channel = []
  notifications : ∀ k i body, s.written[k]? = some ⟨i, .notification body⟩ →
    (∀ h, hs[k]? = some h → h.reply? = none) ∧ ∀ d ∈ s.delivered, d.asked ≠ k
  replied : ∀ i id k, s.tasks[i]? = some (.reading id k) →
    ∃ (work : List Serving.Action) (t : SharedLink σ) (reply : Frame),
      run? service verdict (work.map .serve ++ [.read i]) s = some t ∧
        t.server.hasFailed = false ∧ t.delivered = s.delivered ++ [⟨i, id, k, reply⟩]

variable {service : Service σ} {verdict : Bool} {s : SharedLink σ} {actions : List Action}
  {versions : List Version} {st : σ}

/-- While no task is in a call, none waits for a reply. -/
theorem quiet_of_not_isCalling (h : s.isCalling = false) : s.Quiet := by
  intro i id k hi
  unfold isCalling at h
  rw [List.any_eq_false] at h
  exact h _ (List.mem_of_getElem? hi) rfl

/-- A frame in the row of those that have been handled is the body of its number. -/
theorem Sound.frame_of_handling (hs : s.Sound service verdict actions versions st) {k : Nat}
    {h : Handling σ} (hh : (service.handlings verdict s.server.handled st)[k]? = some h)
    {b : Posted} (hb : s.written[k]? = some b) : h.frame = b.frame := by
  have hframe : s.server.handled[k]? = some h.frame := by
    rw [← service.handlings_frame verdict s.server.handled st, List.getElem?_map, hh]
    rfl
  have hwritten : (s.written.map Posted.frame)[k]? = some h.frame := by
    rw [← hs.order.frames]
    exact List.getElem?_append_left (List.getElem?_eq_some_iff.mp hframe).1 ▸ hframe
  rw [List.getElem?_map, hb] at hwritten
  exact (Option.some.inj hwritten).symm

/-- Every reply that has been read belongs to the call that it was read for. -/
theorem Sound.own_of_mem (hs : s.Sound service verdict actions versions st)
    (hreadable : AllReadable actions versions) {d : Delivery} (hd : d ∈ s.delivered) :
    d.Own service verdict actions versions s.written
      (service.handlings verdict s.server.handled st) := by
  have hpair : (d.asked, d.reply)
      ∈ numbered Handling.reply? (service.handlings verdict s.server.handled st) :=
    (hs.delivered_prefix hreadable).subset (List.mem_map_of_mem hd)
  obtain ⟨h, hh, hreply⟩ := mem_numbered.mp hpair
  obtain ⟨body, hwritten⟩ := hs.written_of_mem_delivered hd
  obtain ⟨p, e, c, ha, hversion, hprepares, hread⟩ :=
    (hs.written _ (List.mem_of_getElem? hwritten)).exists_readAs hreadable
  have hframe := hs.frame_of_handling hh hwritten
  rw [← hframe] at hread
  obtain ⟨method, params, rfl, hid, rfl⟩ := hprepares.eq_call
  refine ⟨p, c.version, method, params, h, ha, hversion, hwritten, hh, hframe, hreply, ?_⟩
  -- the reply is what the frame is answered with, and the frame holds the call
  have hhandles := service.handlings_handles verdict _ st h (List.mem_of_getElem? hh)
  have hanswer : some d.reply = (service.answerFrame verdict h.frame).value h.before :=
    hreply.symm.trans hhandles.reply
  rw [service.answerFrame_of_readAs verdict hread, hprepares.isNotification_meant, hframe]
    at hanswer
  rw [hid]
  exact Option.some.inj hanswer

/-- On a link that is used as it should be nothing gets mixed up. -/
theorem Sound.untangled (hs : s.Sound service verdict actions versions st)
    (hreadable : AllReadable actions versions) (hfailed : s.server.hasFailed = false) :
    s.Untangled service verdict actions versions st
      (service.handlings verdict s.server.handled st) where
  served := by
    rw [hs.order.replies, hs.order.state]
    exact service.answerFrames_comeTo verdict s.server.handled st
  arrived := hs.order.frames
  own := fun d hd => hs.own_of_mem hreadable hd
  once := by
    obtain ⟨awaited, hcalls, -, -⟩ := hs.exists_awaited
    have hsorted := numbered_sorted Posted.call? s.written
    rw [hcalls, List.map_append, List.map_map] at hsorted
    exact (List.pairwise_append.mp hsorted).1
  stream := hs.stream_eq
  calls := by
    intro k i id body hk
    obtain ⟨awaited, hcalls, hawaited, -⟩ := hs.exists_awaited
    have hmem : (k, i, id) ∈ numbered Posted.call? s.written := mem_numbered.mpr ⟨_, hk, rfl⟩
    rw [hcalls] at hmem
    rcases List.mem_append.mp hmem with hdelivered | hwaiting
    · obtain ⟨d, hd, hcall⟩ := List.mem_map.mp hdelivered
      simp only [Delivery.call, Prod.mk.injEq] at hcall
      exact Or.inl ⟨d, hd, hcall⟩
    · exact Or.inr (hawaited _ hwaiting)
  settled := by
    intro hcalling
    obtain ⟨awaited, hcalls, -, hnone⟩ := hs.exists_awaited
    -- without a call that waits, there are no more replies than have been read
    have hlength := hs.length_unread_le hreadable hcalls
    rw [hnone (quiet_of_not_isCalling hcalling)] at hlength
    exact List.append_eq_nil_iff.mp (List.length_eq_zero_iff.mp (Nat.le_zero.mp hlength))
  notifications := by
    intro k i body hk
    constructor
    · intro h hh
      have hsome := (hs.written _ (List.mem_of_getElem? hk)).isSome_reply hreadable
        (service.handlings_handles verdict _ st h (List.mem_of_getElem? hh))
        (hs.frame_of_handling hh hk)
      exact Option.isNone_iff_eq_none.mp (Option.isSome_eq_false_iff.mp hsome)
    · rintro d hd rfl
      obtain ⟨body', hwritten⟩ := hs.written_of_mem_delivered hd
      exact nomatch hk.symm.trans hwritten
  replied := fun i id k hi => hs.exists_reply hreadable hfailed hi

/-- Any number of tasks use one link through any number of clients of either version, and their
    steps and those of the server come in any order. As long as the connection stays open nothing
    gets mixed up, if the bodies for the errands can be read: every call gets the reply that came of
    its own body, no reply goes to two calls, none is left when no call is in progress, and
    notifications neither get replies nor take them away. -/
theorem no_crosstalk (service : Service σ) (verdict : Bool) (versions : List Version) (n : Nat)
    (st : σ) (actions : List Action) {s : SharedLink σ}
    (hreadable : AllReadable actions versions)
    (hrun : run? service verdict actions (start versions n st) = some s)
    (hfailed : s.server.hasFailed = false) :
    ∃ hs, s.Untangled service verdict actions versions st hs :=
  ⟨_, (sound_of_run? hrun hfailed).untangled hreadable hfailed⟩

/-- Two tasks count through clients of the two versions, whose first calls have the same id. The
    first one notifies the server while the second one waits for the link. -/
def twoCounters : List Action :=
  [.begin 0 0 (.call "bump" (.positional [])), .begin 1 1 (.call "bump" (.named [])),
    .take 0, .write 0, .serve .read, .serve .write, .read 0,
    .begin 0 0 (.notify "bump" (.positional [])), .take 0, .write 0, .take 1, .write 1,
    .serve .read, .serve .read, .serve .write, .read 1]

/-- Each gets its own number, and the notification is counted in between. -/
theorem two_counters_untangled :
    ∃ s, run? countingService true twoCounters (start [.v1, .v2] 2 5) = some s
      ∧ s.server.hasFailed = false
      ∧ s.delivered = [⟨0, .ofNat 1, 0, .text "\x7b\"result\":5,\"id\":1\x7d".toUTF8⟩,
        ⟨1, .ofNat 1, 2, .text "\x7b\"jsonrpc\":\"2.0\",\"result\":7,\"id\":1\x7d".toUTF8⟩]
      ∧ ∃ hs, s.Untangled countingService true twoCounters [.v1, .v2] 5 hs := by
  have hend : (run? countingService true twoCounters (start [.v1, .v2] 2 5)).map
      (fun s => (s.server.hasFailed, s.delivered))
      = some (false,
        [⟨0, .ofNat 1, 0, .text "\x7b\"result\":5,\"id\":1\x7d".toUTF8⟩,
          ⟨1, .ofNat 1, 2, .text "\x7b\"jsonrpc\":\"2.0\",\"result\":7,\"id\":1\x7d".toUTF8⟩]) := by
    decide +kernel
  obtain ⟨s, hrun, hs⟩ := Option.map_eq_some_iff.mp hend
  obtain ⟨hfailed, hdelivered⟩ := Prod.mk.inj hs
  have hreadable : AllReadable twoCounters [.v1, .v2] := by
    intro i p e _ he _ _
    have hpositional : (Params.positional []).toJson.Valid := .arr (List.forall_mem_nil _)
    have hnamed : (Params.named []).toJson.Valid := .obj .nil (List.forall_mem_nil _)
    simp only [twoCounters, List.mem_cons, Action.begin.injEq, reduceCtorEq, false_or, or_false,
      List.not_mem_nil] at he
    rcases he with ⟨-, -, rfl⟩ | ⟨-, -, rfl⟩ | ⟨-, -, rfl⟩
    · exact ⟨hpositional, by decide⟩
    · exact ⟨hnamed, by decide⟩
    · exact ⟨hpositional, by decide⟩
  exact ⟨s, hrun, hfailed, hdelivered,
    no_crosstalk countingService true [.v1, .v2] 2 5 twoCounters hreadable hrun hfailed⟩

end SharedLink

end Switchboard
