import Switchboard.Proofs.Notifications
import Switchboard.Proofs.Runs
import Switchboard.Server.Draft
import Switchboard.Socket.Serving

/-!
# A connection answers in order

The reader and the writer of a connection take their steps in any order, and
the channel between them is all that they share. Whatever the order, what has
been written and what still waits in the channel are together the replies to
the frames that have been read: none is lost, none comes twice, and none
overtakes another.

`Serving.Step` lists what can happen to a connection, and every invariant is
one case analysis on it. `Serving.InOrder` is the invariant that relates a
connection to its frames answered one after another; what that comes to for a
single frame is said by `Service.Handles`.
-/

namespace Switchboard

variable {σ : Type}

/-- The data frames that arrive before the end of what arrives. -/
def Incoming.frames : List Incoming → List Frame
  | .data f :: rest => f :: frames rest
  | .control :: rest => frames rest
  | [] | .close :: _ | .failure :: _ | .ended :: _ => []

theorem Incoming.frames_eq_nil {x : Incoming} (hend : x.isEnd = true) (rest : List Incoming) :
    frames (x :: rest) = [] := by
  cases x with
  | data f | control => exact nomatch hend
  | close | failure | ended => rfl

/-! ## Frames in a row -/

/-- A frame and what came of it: the states before and after it, and the reply if there is one. -/
structure Handling (σ : Type) where
  frame : Frame
  before : σ
  reply? : Option Frame
  after : σ

namespace Service

variable (s : Service σ) (verdict : Bool)

/-- A frame has been handled for a caller with a verdict. The reply is a frame of the same sort and
    carries what is sent back to the body of the frame; there is none exactly if the body wants no
    answer. All handlers that are called on the way are told the verdict. -/
structure Handles (h : Handling σ) : Prop where
  reply : h.reply? = ((s.answer h.frame.body verdict).value h.before).replyBody?.map
    fun text => h.frame.withBody text.toUTF8
  after : h.after = (s.answer h.frame.body verdict).after h.before
  silent : h.reply? = none ↔ Body.wantsNoAnswer (Json.ofBytes? h.frame.body) = true
  callers : ∀ i ∈ s.invocations verdict h.frame.body h.before, i.context.authenticated = verdict

/-- What comes of a frame in a state. -/
def handling (f : Frame) (st : σ) : Handling σ where
  frame := f
  before := st
  reply? := (s.answerFrame verdict f).value st
  after := (s.answerFrame verdict f).after st

/-- What comes of frames in a row, each in the state that the one before left. -/
def handlings : List Frame → σ → List (Handling σ)
  | [], _ => []
  | f :: rest, st => s.handling verdict f st :: handlings rest (s.handling verdict f st).after

/-- Handlers are told the verdict about the caller. -/
theorem invocations_authenticated (body : ByteArray) (st : σ) :
    ∀ i ∈ s.invocations verdict body st, i.context.authenticated = verdict := by
  intro i hi
  rw [s.invocations_eq verdict body st] at hi
  obtain ⟨x, hx, hi⟩ := List.mem_flatMap.mp hi
  obtain ⟨v, -, st', rfl⟩ := s.exists_of_mem_exchanges verdict hx
  rcases s.exchange_quiet_or_called verdict v st' with ⟨-, hnone⟩ | ⟨c, m, -, -, hcalled⟩
  · rw [hnone] at hi
    exact nomatch hi
  · rw [hcalled] at hi
    obtain rfl := List.mem_singleton.mp hi
    rfl

theorem handling_handles (f : Frame) (st : σ) : s.Handles verdict (s.handling verdict f st) where
  reply := rfl
  after := rfl
  silent := by
    rw [← s.answer_isNotification verdict _ st, ← Replies.replyBody?_eq_none_iff]
    exact Option.map_eq_none_iff
  callers := s.invocations_authenticated verdict f.body st

theorem handlings_handles (frames : List Frame) (st : σ) :
    ∀ h ∈ s.handlings verdict frames st, s.Handles verdict h := by
  induction frames generalizing st with
  | nil => exact fun h hh => nomatch hh
  | cons f rest ih =>
      intro h hh
      rcases List.mem_cons.mp hh with rfl | hrest
      · exact s.handling_handles verdict f st
      · exact ih _ h hrest

theorem handlings_frame (frames : List Frame) (st : σ) :
    (s.handlings verdict frames st).map Handling.frame = frames := by
  induction frames generalizing st with
  | nil => rfl
  | cons f rest ih => exact congrArg (f :: ·) (ih _)

/-- The replies to frames in a row are those of their handlings. -/
theorem answerFrames_value (frames : List Frame) (st : σ) :
    (s.answerFrames verdict frames).value st
      = (s.handlings verdict frames st).filterMap Handling.reply? := by
  induction frames generalizing st with
  | nil => rfl
  | cons f rest ih =>
      simp only [answerFrames, handlings, Act.value_bind, Act.value_pure, List.filterMap_cons, ih]
      show ((s.handling verdict f st).reply?.toList ++ _) = _
      cases (s.handling verdict f st).reply? with
      | none => rfl
      | some reply => rfl

/-- The first frame is answered in the state that is given, and each of the others in the state
    that the one before left. -/
theorem answerFrames_states (frames : List Frame) (st : σ) :
    (s.handlings verdict frames st).map Handling.before
        ++ [(s.answerFrames verdict frames).after st]
      = st :: (s.handlings verdict frames st).map Handling.after := by
  induction frames generalizing st with
  | nil => rfl
  | cons f rest ih => exact congrArg (st :: ·) (ih _)

/-- A frame behind others is answered in the state that they left, and its reply comes behind
    theirs. -/
theorem answerFrames_concat (frames : List Frame) (f : Frame) (st : σ) :
    (s.answerFrames verdict (frames ++ [f])).value st
        = (s.answerFrames verdict frames).value st
          ++ ((s.answerFrame verdict f).value ((s.answerFrames verdict frames).after st)).toList
      ∧ (s.answerFrames verdict (frames ++ [f])).after st
        = (s.answerFrame verdict f).after ((s.answerFrames verdict frames).after st) := by
  induction frames generalizing st with
  | nil => exact ⟨List.append_nil _, rfl⟩
  | cons g rest ih =>
      obtain ⟨hvalue, hafter⟩ := ih ((s.answerFrame verdict g).after st)
      refine ⟨?_, hafter⟩
      show ((s.answerFrame verdict g).value st).toList
          ++ (s.answerFrames verdict (rest ++ [f])).value ((s.answerFrame verdict g).after st)
        = (((s.answerFrame verdict g).value st).toList
          ++ (s.answerFrames verdict rest).value ((s.answerFrame verdict g).after st)) ++ _
      rw [hvalue, List.append_assoc]
      rfl

/-- Frames in a row come to some handlings: they are about these frames, the replies are theirs, the
    first begins in the state that is given, each of the others in the state that the one before
    left, and the last of them leaves the state that is left. -/
structure FramesComeTo (frames : List Frame) (st : σ) (replies : List Frame) (st' : σ)
    (hs : List (Handling σ)) : Prop where
  frames : hs.map Handling.frame = frames
  replies : replies = hs.filterMap Handling.reply?
  states : hs.map Handling.before ++ [st'] = st :: hs.map Handling.after
  each : ∀ h ∈ hs, s.Handles verdict h

/-- What frames are answered with is what comes of handling them. -/
theorem answerFrames_comeTo (frames : List Frame) (st : σ) :
    s.FramesComeTo verdict frames st ((s.answerFrames verdict frames).value st)
      ((s.answerFrames verdict frames).after st) (s.handlings verdict frames st) where
  frames := s.handlings_frame verdict frames st
  replies := s.answerFrames_value verdict frames st
  states := s.answerFrames_states verdict frames st
  each := s.handlings_handles verdict frames st

end Service

/-! ## Steps -/

namespace Serving

/-- What has not been read and will be: nothing once the reader has ended. -/
def pending (c : Serving σ) : List Frame := if c.isReading then Incoming.frames c.inbound else []

/-- How many steps there can be at most. -/
def load (c : Serving σ) : Nat :=
  2 * c.inbound.length + c.channel.length + c.isReading.toNat + c.isWriting.toNat

section Steps

variable (service : Service σ) (verdict : Bool)

/-- The connection once a frame has been read and answered, whatever becomes of the reply. -/
def taken (c : Serving σ) (f : Frame) (rest : List Incoming) : Serving σ :=
  { c with
    state := (service.answerFrame verdict f).after c.state
    inbound := rest
    handled := c.handled ++ [f] }

/-- Everything that can happen to a connection. -/
inductive Step (c : Serving σ) : Action → Serving σ → Prop where
  | skipped {rest : List Incoming} (hreading : c.isReading = true)
      (hin : c.inbound = .control :: rest) : Step c .read { c with inbound := rest }
  | closed {x : Incoming} {rest : List Incoming} (hreading : c.isReading = true)
      (hin : c.inbound = x :: rest) (hend : x.isEnd = true) :
      Step c .read { c with inbound := rest, isReading := false }
  | silent {f : Frame} {rest : List Incoming} (hreading : c.isReading = true)
      (hin : c.inbound = .data f :: rest)
      (hreply : (service.answerFrame verdict f).value c.state = none) :
      Step c .read (c.taken service verdict f rest)
  | answered {f reply : Frame} {rest : List Incoming} (hreading : c.isReading = true)
      (hin : c.inbound = .data f :: rest)
      (hreply : (service.answerFrame verdict f).value c.state = some reply)
      (hwriting : c.isWriting = true) :
      Step c .read { c.taken service verdict f rest with channel := c.channel ++ [reply] }
  | unheard {f : Frame} {rest : List Incoming} (hreading : c.isReading = true)
      (hin : c.inbound = .data f :: rest) (hwriting : c.isWriting = false) :
      Step c .read { c.taken service verdict f rest with isReading := false }
  | written {f : Frame} {rest : List Frame} (hwriting : c.isWriting = true)
      (hchannel : c.channel = f :: rest) :
      Step c .write { c with channel := rest, written := c.written ++ [f] }
  | failed {f : Frame} {rest : List Frame} (hwriting : c.isWriting = true)
      (hchannel : c.channel = f :: rest) :
      Step c .failWrite { c with channel := rest, isWriting := false, hasFailed := true }
  | finished (hwriting : c.isWriting = true) (hreading : c.isReading = false)
      (hchannel : c.channel = []) : Step c .finish { c with isWriting := false }
  | stopped (hreading : c.isReading = true) (hwriting : c.isWriting = false) :
      Step c .stop { c with isReading := false }

end Steps

variable {service : Service σ} {verdict : Bool} {c d : Serving σ} {a : Action}

theorem step_of_handle {f : Frame} {rest : List Incoming} (hreading : c.isReading = true)
    (hin : c.inbound = .data f :: rest) :
    Step service verdict c .read (handle service verdict c f rest) := by
  cases hreply : (service.answerFrame verdict f).value c.state with
  | none =>
      have hhandle : handle service verdict c f rest = c.taken service verdict f rest := by
        simp only [handle, show (service.answerFrame verdict f c.state).1 = none from hreply]
        rfl
      rw [hhandle]
      exact .silent hreading hin hreply
  | some reply =>
      have hhandle : handle service verdict c f rest = if c.isWriting
          then { c.taken service verdict f rest with channel := c.channel ++ [reply] }
          else { c.taken service verdict f rest with isReading := false } := by
        simp only [handle, show (service.answerFrame verdict f c.state).1 = some reply from hreply]
        rfl
      rw [hhandle]
      by_cases hwriting : c.isWriting = true
      · rw [if_pos hwriting]
        exact .answered hreading hin hreply hwriting
      · rw [if_neg hwriting]
        exact .unheard hreading hin (Bool.eq_false_iff.mpr hwriting)

/-- An action that is possible is one of the steps. -/
theorem step_of_step? (h : step? service verdict c a = some d) :
    Step service verdict c a d := by
  cases a with
  | read =>
      simp only [step?, read?] at h
      split at h
      case isFalse => exact nomatch h
      case isTrue hreading =>
        split at h
        case h_1 => exact nomatch h
        case h_2 f rest hin =>
          obtain rfl := Option.some.inj h
          exact step_of_handle hreading hin
        case h_3 rest hin =>
          obtain rfl := Option.some.inj h
          exact .skipped hreading hin
        case h_4 x rest hdata hcontrol hin =>
          obtain rfl := Option.some.inj h
          refine .closed hreading hin ?_
          cases x with
          | data f => exact absurd rfl (hdata f)
          | control => exact absurd rfl hcontrol
          | close | failure | ended => rfl
  | write =>
      simp only [step?] at h
      split at h
      case h_1 f rest hwriting hchannel =>
        obtain rfl := Option.some.inj h
        exact .written hwriting hchannel
      case h_2 => exact nomatch h
  | failWrite =>
      simp only [step?] at h
      split at h
      case h_1 f rest hwriting hchannel =>
        obtain rfl := Option.some.inj h
        exact .failed hwriting hchannel
      case h_2 => exact nomatch h
  | finish =>
      simp only [step?] at h
      split at h
      case isTrue hdone =>
        obtain rfl := Option.some.inj h
        simp only [Bool.and_eq_true, Bool.not_eq_true', List.isEmpty_iff] at hdone
        exact .finished hdone.1.1 hdone.1.2 hdone.2
      case isFalse => exact nomatch h
  | stop =>
      simp only [step?] at h
      split at h
      case isTrue hdone =>
        obtain rfl := Option.some.inj h
        simp only [Bool.and_eq_true, Bool.not_eq_true'] at hdone
        exact .stopped hdone.1 hdone.2
      case isFalse => exact nomatch h

theorem runs : Runs (step? service verdict) (run? service verdict) :=
  ⟨fun _ => rfl, fun _ _ _ => rfl⟩

/-- What every step preserves holds at the end of a run if it holds at its beginning. -/
theorem preserved_of_run? {P : Serving σ → Prop}
    (hstep : ∀ {c a d}, Step service verdict c a d → P c → P d) {actions : List Action}
    (hrun : run? service verdict actions c = some d) (hc : P c) : P d :=
  runs.preserved (fun _ _ _ _ h => hstep (step_of_step? h)) hrun hc

/-- Only a write that fails loses a reply. -/
theorem Step.hasFailed_eq (h : Step service verdict c a d) (ha : a ≠ .failWrite) :
    d.hasFailed = c.hasFailed := by
  cases h with
  | failed => exact absurd rfl ha
  | skipped | closed | silent | answered | unheard | written | finished | stopped => rfl

/-- A lost reply stays lost. -/
theorem Step.hasFailed_of_not (h : Step service verdict c a d) (hd : d.hasFailed = false) :
    c.hasFailed = false := by
  cases h with
  | failed => exact nomatch hd
  | skipped | closed | silent | answered | unheard | written | finished | stopped => exact hd

/-! ## Nothing goes on forever -/

/-- Every step leaves less to be done. -/
theorem Step.load_lt (h : Step service verdict c a d) : d.load < c.load := by
  cases h with
  | skipped hreading hin => simp only [load, hin, List.length_cons]; omega
  | closed hreading hin hend =>
      simp only [load, hin, hreading, List.length_cons, Bool.toNat_true, Bool.toNat_false]; omega
  | silent hreading hin hreply => simp only [load, taken, hin, List.length_cons]; omega
  | answered hreading hin hreply hwriting =>
      simp only [load, taken, hin, List.length_cons, List.length_append, List.length_nil]; omega
  | unheard hreading hin hwriting =>
      simp only [load, taken, hin, hreading, List.length_cons, Bool.toNat_true, Bool.toNat_false]
      omega
  | written hwriting hchannel => simp only [load, hchannel, List.length_cons]; omega
  | failed hwriting hchannel =>
      simp only [load, hchannel, hwriting, List.length_cons, Bool.toNat_true, Bool.toNat_false]
      omega
  | finished hwriting hreading hchannel =>
      simp only [load, hwriting, Bool.toNat_true, Bool.toNat_false]; omega
  | stopped hreading hwriting =>
      simp only [load, hreading, Bool.toNat_true, Bool.toNat_false]; omega

/-- A run has no more actions than the load of the connection that it begins with. -/
theorem length_le_load {actions : List Action}
    (hrun : run? service verdict actions c = some d) : actions.length + d.load ≤ c.load := by
  induction actions generalizing c with
  | nil =>
      obtain rfl := Option.some.inj hrun
      exact Nat.le_of_eq (Nat.zero_add _)
  | cons a rest ih =>
      obtain ⟨e, he, hrest⟩ := Option.bind_eq_some_iff.mp hrun
      have hlt := (step_of_step? he).load_lt
      have hle := ih hrest
      simp only [List.length_cons]
      omega

/-- As long as the reader goes on, the end of what arrives is still to come. -/
theorem Step.exists_end (h : Step service verdict c a d)
    (hc : c.isReading = true → ∃ x ∈ c.inbound, x.isEnd = true) :
    d.isReading = true → ∃ x ∈ d.inbound, x.isEnd = true := by
  intro hreading
  -- whatever has been read without ending the reader is not the end
  have hbehind {x : Incoming} {rest : List Incoming} (hin : c.inbound = x :: rest)
      (hc' : c.isReading = true) (hx : x.isEnd = false) : ∃ y ∈ rest, y.isEnd = true := by
    obtain ⟨y, hy, hend⟩ := hc hc'
    rw [hin] at hy
    rcases List.mem_cons.mp hy with rfl | hrest
    · exact absurd hend (by rw [hx]; exact Bool.false_ne_true)
    · exact ⟨y, hrest, hend⟩
  cases h with
  | skipped hreading' hin => exact hbehind hin hreading' rfl
  | silent hreading' hin => exact hbehind hin hreading' rfl
  | answered hreading' hin => exact hbehind hin hreading' rfl
  | closed | unheard | stopped => exact nomatch hreading
  | written | failed | finished => exact hc hreading

/-- A reader that goes on reads what has arrived. -/
theorem isSome_step?_read (hreading : c.isReading = true) (hin : c.inbound ≠ []) :
    (step? service verdict c .read).isSome = true := by
  obtain ⟨x, rest, hin⟩ := List.exists_cons_of_ne_nil hin
  simp only [step?, read?, hreading, if_true, hin]
  cases x <;> rfl

/-- A writer that goes on writes what waits in the channel. -/
theorem isSome_step?_write (hwriting : c.isWriting = true) (hchannel : c.channel ≠ []) :
    (step? service verdict c .write).isSome = true := by
  obtain ⟨f, rest, hchannel⟩ := List.exists_cons_of_ne_nil hchannel
  simp only [step?, hwriting, hchannel, Option.isSome_some]

/-- A connection that is not over and has the end of what arrives before it can go on without
    failing. -/
theorem exists_step?_of_not_isOver (hend : c.isReading = true → ∃ x ∈ c.inbound, x.isEnd = true)
    (hover : c.isOver = false) :
    ∃ a, a ≠ .failWrite ∧ (step? service verdict c a).isSome = true := by
  cases hreading : c.isReading with
  | true =>
      obtain ⟨x, hx, -⟩ := hend hreading
      exact ⟨.read, nofun, isSome_step?_read hreading (List.ne_nil_of_mem hx)⟩
  | false =>
      -- the reader has ended, so the writer has not
      have hwriting : c.isWriting = true := by
        simpa [isOver, hreading] using hover
      by_cases hchannel : c.channel = []
      · refine ⟨.finish, nofun, ?_⟩
        simp [step?, hreading, hwriting, hchannel]
      · exact ⟨.write, nofun, isSome_step?_write hwriting hchannel⟩

/-- However the steps are ordered, a connection that the other side ends is served to the end: there
    is a bound on the number of steps, and as long as it is not over some step is possible that is
    no failure. -/
theorem served_to_the_end {inbound : List Incoming} (harrives : ∃ x ∈ inbound, x.isEnd = true)
    {st : σ} {actions : List Action}
    (hrun : run? service verdict actions (start st inbound) = some c) :
    actions.length ≤ 2 * inbound.length + 2
      ∧ (c.isOver = true ∨ ∃ a, a ≠ .failWrite ∧ (step? service verdict c a).isSome = true) := by
  constructor
  · have hload : (start st inbound).load = 2 * inbound.length + 2 := rfl
    have hle := length_le_load hrun
    omega
  · cases hover : c.isOver with
    | true => exact Or.inl rfl
    | false =>
        have hend := preserved_of_run? (fun hstep => hstep.exists_end) hrun (fun _ => harrives)
        exact Or.inr (exists_step?_of_not_isOver hend hover)

/-! ## Order -/

/-- A connection has answered the first of some frames, the rest of them are still to be read, and
    no reply has been lost: what has been written and what waits to be written are the replies. If
    the writer has ended, it has left nothing to be done. -/
structure InOrder (service : Service σ) (verdict : Bool) (st : σ) (frames : List Frame)
    (c : Serving σ) : Prop where
  frames : c.handled ++ c.pending = frames
  state : c.state = (service.answerFrames verdict c.handled).after st
  replies : c.written ++ c.channel = (service.answerFrames verdict c.handled).value st
  flushed : c.isWriting = false → c.isReading = false ∧ c.channel = []

theorem pending_of_reading (hreading : c.isReading = true) :
    c.pending = Incoming.frames c.inbound := if_pos hreading

theorem pending_of_not_reading (hreading : c.isReading = false) : c.pending = [] :=
  if_neg (Bool.eq_false_iff.mp hreading)

variable {st : σ} {frames : List Frame}

/-- At first all frames are still to be read. -/
theorem inOrder_start (inbound : List Incoming) :
    (start st inbound).InOrder service verdict st (Incoming.frames inbound) :=
  ⟨rfl, rfl, rfl, nofun⟩

/-- The frames are those that have been read and, if the reader goes on, those that it will read. -/
theorem handled_append_pending (hreading : c.isReading = true)
    (h : c.handled ++ Incoming.frames c.inbound = frames) : c.handled ++ c.pending = frames := by
  rw [pending_of_reading hreading]
  exact h

theorem InOrder.frames_of_reading (hc : c.InOrder service verdict st frames)
    (hreading : c.isReading = true) : c.handled ++ Incoming.frames c.inbound = frames := by
  rw [← pending_of_reading hreading]
  exact hc.frames

/-- A reader that goes on has a writer that goes on. -/
theorem InOrder.isWriting_of_reading (hc : c.InOrder service verdict st frames)
    (hreading : c.isReading = true) : c.isWriting = true := by
  cases hwriting : c.isWriting with
  | true => rfl
  | false => exact nomatch (hc.flushed hwriting).1.symm.trans hreading

/-- The frame that is read is the next one, and it is answered in the state that those before it
    left. -/
theorem InOrder.taken (hc : c.InOrder service verdict st frames) {f : Frame}
    {rest : List Incoming} (hreading : c.isReading = true) (hin : c.inbound = .data f :: rest) :
    c.handled ++ [f] ++ Incoming.frames rest = frames
      ∧ (service.answerFrame verdict f).after c.state
        = (service.answerFrames verdict (c.handled ++ [f])).after st
      ∧ c.written ++ (c.channel ++ ((service.answerFrame verdict f).value c.state).toList)
        = (service.answerFrames verdict (c.handled ++ [f])).value st := by
  obtain ⟨hvalue, hafter⟩ := service.answerFrames_concat verdict c.handled f st
  refine ⟨?_, ?_, ?_⟩
  · rw [← hc.frames_of_reading hreading, hin, List.append_assoc]
    rfl
  · rw [hafter, hc.state]
  · rw [hvalue, ← hc.replies, ← hc.state, List.append_assoc]

/-- A step keeps the answers in order. -/
theorem Step.inOrder (h : Step service verdict c a d) (hd : d.hasFailed = false)
    (hc : c.InOrder service verdict st frames) : d.InOrder service verdict st frames := by
  cases h with
  | skipped hreading hin =>
      have hframes := hc.frames_of_reading hreading
      rw [hin] at hframes
      exact ⟨handled_append_pending hreading hframes, hc.state, hc.replies, hc.flushed⟩
  | closed hreading hin hend =>
      have hframes := hc.frames_of_reading hreading
      rw [hin, Incoming.frames_eq_nil hend] at hframes
      refine ⟨hframes, hc.state, hc.replies, ?_⟩
      intro hwriting
      exact ⟨rfl, (hc.flushed hwriting).2⟩
  | silent hreading hin hreply =>
      obtain ⟨hframes, hstate, hreplies⟩ := hc.taken hreading hin
      rw [hreply, Option.toList_none, List.append_nil] at hreplies
      exact ⟨handled_append_pending hreading hframes, hstate, hreplies, hc.flushed⟩
  | answered hreading hin hreply hwriting =>
      obtain ⟨hframes, hstate, hreplies⟩ := hc.taken hreading hin
      rw [hreply] at hreplies
      refine ⟨handled_append_pending hreading hframes, hstate, hreplies, ?_⟩
      intro hstopped
      exact nomatch hwriting.symm.trans hstopped
  | written hwriting hchannel =>
      refine ⟨hc.frames, hc.state, ?_, ?_⟩
      · rw [← hc.replies, hchannel]
        exact List.append_assoc ..
      · intro hstopped
        exact nomatch hwriting.symm.trans hstopped
  | failed => exact nomatch hd
  | finished _ hreading hchannel =>
      exact ⟨hc.frames, hc.state, hc.replies, fun _ => ⟨hreading, hchannel⟩⟩
  -- the reader outlives the writer only if a reply has been lost
  | unheard hreading _ hwriting =>
      exact nomatch (hc.isWriting_of_reading hreading).symm.trans hwriting
  | stopped hreading hwriting =>
      exact nomatch (hc.isWriting_of_reading hreading).symm.trans hwriting

/-- As long as no reply is lost, a connection stays in order. -/
theorem inOrder_of_run? {actions : List Action}
    (hrun : run? service verdict actions c = some d) (hd : d.hasFailed = false)
    (hc : c.InOrder service verdict st frames) : d.InOrder service verdict st frames := by
  refine preserved_of_run? (P := fun c => c.hasFailed = false → c.InOrder service verdict st frames)
    ?_ hrun (fun _ => hc) hd
  intro c a d hstep hc hd
  exact hstep.inOrder hd (hc (hstep.hasFailed_of_not hd))

/-- What is left of a connection that is over. -/
theorem InOrder.of_isOver (hc : c.InOrder service verdict st frames) (hover : c.isOver = true) :
    c.handled = frames ∧ c.channel = [] := by
  simp only [isOver, Bool.and_eq_true, Bool.not_eq_true'] at hover
  have hframes := hc.frames
  rw [pending_of_not_reading hover.1, List.append_nil] at hframes
  exact ⟨hframes, (hc.flushed hover.2).2⟩

end Serving

/-- A connection is served by a reader and a writer whose steps come in any order, and no reply has
    been lost so far. Then what has been handed to the socket and what waits in the channel are
    exactly the replies to the frames that have been read, in the order of their arrival, and the
    frames that are still to be read are the rest of those that arrive before the end.

    Each frame has been answered in the state that the one before left, by what is sent back to its
    body in a frame of the same sort, and not at all if its body wants no answer; and every handler
    has been told the one verdict of the handshake. A connection that is over has answered all
    frames and has handed every reply to the socket. -/
theorem Server.connection_answers_in_order (server : Server σ) (headers : Headers) (st : σ)
    (inbound : List Incoming) (actions : List Serving.Action) {c : Serving σ}
    (hrun : Serving.run? server.service (server.verdict headers) actions
      (Serving.start st inbound) = some c)
    (hfailed : c.hasFailed = false) :
    (∀ a, server.authenticator? = some a → server.verdict headers = a headers)
      ∧ (server.authenticator? = none → server.verdict headers = false)
      ∧ c.handled ++ c.pending = Incoming.frames inbound
      ∧ ∃ hs, server.service.FramesComeTo (server.verdict headers) c.handled st
          (c.written ++ c.channel) c.state hs
        ∧ (c.isOver = true → c.handled = Incoming.frames inbound ∧ c.channel = []
          ∧ c.written = hs.filterMap Handling.reply?) := by
  have horder := Serving.inOrder_of_run? hrun hfailed (Serving.inOrder_start inbound)
  have hcome := server.service.answerFrames_comeTo (server.verdict headers) c.handled st
  rw [← horder.replies, ← horder.state] at hcome
  refine ⟨?_, ?_, horder.frames, _, hcome, ?_⟩
  · intro a ha
    simp only [verdict, ha]
  · intro hnone
    simp only [verdict, hnone]
  · intro hover
    obtain ⟨hhandled, hchannel⟩ := horder.of_isOver hover
    -- nothing is left in the channel once the writer has ended
    have hreplies := hcome.replies
    rw [hchannel, List.append_nil] at hreplies
    exact ⟨hhandled, hchannel, hreplies⟩

/-- A server with the counting method for those who know a token. -/
def tallyServer : Server Nat where
  address := ⟨.v4 127 0 0 1, 80⟩
  service := countingService
  authenticator? := some (BearerToken.accepts ⟨"s3cret"⟩)

/-- The headers of a caller who knows the token. -/
def tokenHeaders : Headers := [⟨"authorization", "Bearer s3cret".toUTF8.toList⟩]

/-- A call as text, a ping, a call as bytes, a notification and the end. -/
def mixedFrames : List Incoming :=
  [.data (.text "\x7b\"id\":7,\"method\":\"bump\"\x7d".toUTF8), .control,
    .data (.binary "\x7b\"id\":8,\"method\":\"bump\"\x7d".toUTF8),
    .data (.text "\x7b\"method\":\"bump\"\x7d".toUTF8), .close]

/-- The first reply is written when the second call has been answered, and the second one when the
    reader has ended. -/
theorem mixed_frames_answered :
    ∃ c, Serving.run? tallyServer.service (tallyServer.verdict tokenHeaders)
        [.read, .read, .read, .write, .read, .read, .write, .finish]
        (Serving.start 5 mixedFrames) = some c
      ∧ c.hasFailed = false ∧ c.state = 8
      ∧ c.written = [.text "\x7b\"result\":5,\"id\":7\x7d".toUTF8,
        .binary "\x7b\"result\":6,\"id\":8\x7d".toUTF8]
      ∧ c.handled = Incoming.frames mixedFrames
      ∧ ∃ hs, tallyServer.service.FramesComeTo true c.handled 5 (c.written ++ c.channel) c.state hs
        ∧ c.written = hs.filterMap Handling.reply? := by
  have hsome : (Serving.run? tallyServer.service (tallyServer.verdict tokenHeaders)
      [.read, .read, .read, .write, .read, .read, .write, .finish]
      (Serving.start 5 mixedFrames)).map (fun c => (c.hasFailed, c.isOver, c.state, c.written))
      = some (false, true, 8, [.text "\x7b\"result\":5,\"id\":7\x7d".toUTF8,
        .binary "\x7b\"result\":6,\"id\":8\x7d".toUTF8]) := by decide +kernel
  obtain ⟨c, hrun, hc⟩ := Option.map_eq_some_iff.mp hsome
  simp only [Prod.mk.injEq] at hc
  obtain ⟨hfailed, hover, hstate, hwritten⟩ := hc
  obtain ⟨hknown, -, -, hs, hcome, hend⟩ :=
    tallyServer.connection_answers_in_order tokenHeaders 5 mixedFrames _ hrun hfailed
  obtain ⟨hhandled, -, hreplies⟩ := hend hover
  have hverdict : tallyServer.verdict tokenHeaders = true :=
    (hknown _ rfl).trans (by decide +kernel)
  rw [hverdict] at hcome
  exact ⟨c, hrun, hfailed, hstate, hwritten, hhandled, hs, hcome, hreplies⟩

end Switchboard
