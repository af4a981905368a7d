import Switchboard.Proofs.Errands
import Switchboard.Proofs.Groundwork
import Switchboard.Proofs.Numbering
import Switchboard.Proofs.Serving
import Switchboard.Socket.Sharing

/-!
# How a shared link is used

Tasks take turns at a link, and the server at its other end goes on meanwhile.
`SharedLink.Step` lists what can happen, and `SharedLink.Sound` is what all of
it preserves. Only the holder of the link writes, and the one who has written a
call stays its holder until a reply is read. So the calls among the bodies that
have been written are, in order, those whose replies have been read and perhaps
one more, which is the holder's.
-/

namespace Switchboard

variable {σ : Type}

/-! ## A connection that stays open -/

/-- The reader of a connection goes on, and nothing has arrived that will end it. -/
structure Serving.Open (c : Serving σ) : Prop where
  reading : c.isReading = true
  endless : ∀ x ∈ c.inbound, x.isEnd = false

theorem Incoming.frames_append {l : List Incoming} (h : ∀ x ∈ l, x.isEnd = false)
    (l' : List Incoming) : frames (l ++ l') = frames l ++ frames l' := by
  induction l with
  | nil => rfl
  | cons x rest ih =>
      obtain ⟨hx, hrest⟩ := List.forall_mem_cons.mp h
      cases x with
      | data f => exact congrArg (f :: ·) (ih hrest)
      | control => exact ih hrest
      | close | failure | ended => exact nomatch hx

namespace Serving

variable {service : Service σ} {verdict : Bool} {st : σ} {frames : List Frame} {c d : Serving σ}

/-- A frame that arrives is one more to be answered. -/
theorem InOrder.arrive (hc : c.InOrder service verdict st frames) (hopen : c.Open) (f : Frame) :
    (c.arrive f).InOrder service verdict st (frames ++ [f]) := by
  have hframes : c.handled ++ Incoming.frames (c.inbound ++ [.data f]) = frames ++ [f] := by
    rw [Incoming.frames_append hopen.endless, ← hc.frames_of_reading hopen.reading,
      List.append_assoc]
    rfl
  exact ⟨handled_append_pending hopen.reading hframes, hc.state, hc.replies, hc.flushed⟩

/-- A frame that arrives does not end a connection. -/
theorem Open.arrive (hopen : c.Open) (f : Frame) : (c.arrive f).Open := by
  refine ⟨hopen.reading, ?_⟩
  intro x hx
  rcases List.mem_append.mp hx with hx | hx
  · exact hopen.endless x hx
  · rw [List.mem_singleton.mp hx]
    rfl

/-- An open connection stays open unless a reply is lost, and what has been written stays. -/
theorem Step.stays_open {a : Action} (h : Step service verdict c a d) (hd : d.hasFailed = false)
    (hc : c.InOrder service verdict st frames) (hopen : c.Open) :
    d.Open ∧ c.written <+: d.written := by
  have hbehind {x : Incoming} {rest : List Incoming} (hin : c.inbound = x :: rest) :
      ∀ y ∈ rest, y.isEnd = false := by
    intro y hy
    exact hopen.endless y (hin ▸ List.mem_cons_of_mem x hy)
  have hwriting := hc.isWriting_of_reading hopen.reading
  cases h with
  | skipped _ hin => exact ⟨⟨hopen.reading, hbehind hin⟩, List.prefix_refl _⟩
  | closed _ hin hend =>
      have hx := hopen.endless _ (hin ▸ List.mem_cons_self)
      exact nomatch hend.symm.trans hx
  | silent _ hin => exact ⟨⟨hopen.reading, hbehind hin⟩, List.prefix_refl _⟩
  | answered _ hin => exact ⟨⟨hopen.reading, hbehind hin⟩, List.prefix_refl _⟩
  | written => exact ⟨⟨hopen.reading, hopen.endless⟩, List.prefix_append _ _⟩
  | failed => exact nomatch hd
  | finished _ hreading => exact nomatch hreading.symm.trans hopen.reading
  | unheard _ _ hstopped => exact nomatch hstopped.symm.trans hwriting
  | stopped _ hstopped => exact nomatch hstopped.symm.trans hwriting

end Serving

/-! ## Steps of a shared link -/

/-- The task and the id of a call that has been written. -/
def Posted.call? (b : Posted) : Option (Nat × Id) := b.sent.id?.map (b.task, ·)

/-- The call that a reply has been read for, with its number. -/
def Delivery.call (d : Delivery) : Nat × Nat × Id := (d.asked, d.task, d.id)

namespace LinkProgress

/-- The body that a task is about to write. -/
def body? : LinkProgress → Option Sent
  | .waiting b | .writing b => some b
  | .idle | .reading .. => none

/-- Whether a task has the link. -/
def holdsLink : LinkProgress → Bool
  | .writing _ | .reading .. => true
  | .idle | .waiting _ => false

end LinkProgress

namespace SharedLink

section Steps

variable (service : Service σ) (verdict : Bool)

/-- Everything that can happen on a link. -/
inductive Step (s : SharedLink σ) : Action → SharedLink σ → Prop where
  | refused {i p : Nat} {e : Errand} {c : Client} {f : Fault} (hidle : s.tasks[i]? = some .idle)
      (hclient : s.clients[p]? = some c) (hprepare : c.prepare e = .error f) :
      Step s (.begin i p e) s
  | begun {i p : Nat} {e : Errand} {c next : Client} {b : Sent}
      (hidle : s.tasks[i]? = some .idle) (hclient : s.clients[p]? = some c)
      (hprepare : c.prepare e = .ok (b, next)) :
      Step s (.begin i p e) { s.setTask i (.waiting b) with clients := s.clients.set p next }
  | took {i : Nat} {b : Sent} (howner : s.owner? = none)
      (hwaiting : s.tasks[i]? = some (.waiting b)) :
      Step s (.take i) { s.setTask i (.writing b) with owner? := some i }
  | called {i : Nat} {id : Id} {body : ByteArray}
      (hwriting : s.tasks[i]? = some (.writing (.call id body))) :
      Step s (.write i)
        ((s.post ⟨i, .call id body⟩).setTask i (.reading id s.written.length))
  | notified {i : Nat} {body : ByteArray}
      (hwriting : s.tasks[i]? = some (.writing (.notification body))) :
      Step s (.write i)
        { (s.post ⟨i, .notification body⟩).setTask i .idle with owner? := none }
  | served {a : Serving.Action} {c : Serving σ}
      (hserved : Serving.Step service verdict s.server a c) :
      Step s (.serve a) { s with server := c }
  | read {i k : Nat} {id : Id} {reply : Frame} {rest : List Frame}
      (hreading : s.tasks[i]? = some (.reading id k)) (hunread : s.unread = reply :: rest) :
      Step s (.read i) { s.setTask i .idle with
        owner? := none
        delivered := s.delivered ++ [⟨i, id, k, reply⟩] }

end Steps

variable {service : Service σ} {verdict : Bool} {s t : SharedLink σ} {a : Action}

/-- An action that is possible is one of the steps. -/
theorem step_of_step? (h : step? service verdict s a = some t) : Step service verdict s a t := by
  cases a with
  | begin i p e =>
      simp only [step?] at h
      split at h
      case h_1 c hidle hclient =>
        obtain rfl := Option.some.inj h
        unfold begin
        cases hprepare : c.prepare e with
        | error f => exact .refused hidle hclient hprepare
        | ok r => exact .begun hidle hclient hprepare
      case h_2 => exact nomatch h
  | take i =>
      simp only [step?] at h
      split at h
      case h_1 b howner hwaiting =>
        obtain rfl := Option.some.inj h
        exact .took howner hwaiting
      case h_2 => exact nomatch h
  | write i =>
      simp only [step?] at h
      split at h
      case h_1 b hwriting =>
        obtain rfl := Option.some.inj h
        cases b with
        | call id body => exact .called hwriting
        | notification body => exact .notified hwriting
      case h_2 => exact nomatch h
  | serve a =>
      obtain ⟨c, hserved, rfl⟩ := Option.map_eq_some_iff.mp h
      exact .served (Serving.step_of_step? hserved)
  | read i =>
      simp only [step?] at h
      split at h
      case h_1 id k reply rest hreading hunread =>
        obtain rfl := Option.some.inj h
        exact .read hreading hunread
      case h_2 => exact nomatch h

theorem runs : Runs (step? service verdict) (run? service verdict) :=
  ⟨fun _ => rfl, fun _ _ _ => rfl⟩

/-- What the steps of a run preserve holds at its end if it holds at its beginning. -/
theorem preserved_of_run? {P : SharedLink σ → Prop} {actions : List Action}
    (hstep : ∀ a ∈ actions, ∀ {s t}, Step service verdict s a t → P s → P t)
    (hrun : run? service verdict actions s = some t) (hs : P s) : P t :=
  runs.preserved (fun a ha _ _ h => hstep a ha (step_of_step? h)) hrun hs

/-- A lost reply stays lost. -/
theorem Step.hasFailed_of_not (h : Step service verdict s a t)
    (ht : t.server.hasFailed = false) : s.server.hasFailed = false := by
  cases h with
  | served hserved => exact hserved.hasFailed_of_not ht
  | refused | begun | took | called | notified | read => exact ht

/-! ## The invariant -/

/-- A body has been prepared for an errand that its task has begun, by a client of the version. -/
def Begun (actions : List Action) (versions : List Version) (b : Posted) : Prop :=
  ∃ p e c next, Action.begin b.task p e ∈ actions ∧ versions[p]? = some c.version ∧
    Client.prepare c e = .ok (b.sent, next)

/-- No task waits for a reply. -/
def Quiet (s : SharedLink σ) : Prop :=
  ∀ (i : Nat) (id : Id) (k : Nat), s.tasks[i]? ≠ some (.reading id k)

variable (service verdict) in
/-- A link is used as it should be. Tasks write what has been prepared for them; one that writes or
    reads is the holder. The calls that have been written are those whose replies have been read
    and, if a task waits for a reply, its call. The server has answered what has arrived in order,
    and the replies that have been read are the first that it has written. -/
structure Sound (actions : List Action) (versions : List Version) (st : σ)
    (s : SharedLink σ) : Prop where
  clients : s.clients.map Client.version = versions
  prepared : ∀ i p, s.tasks[i]? = some p → ∀ b, p.body? = some b → Begun actions versions ⟨i, b⟩
  holder : ∀ i p, s.tasks[i]? = some p → p.holdsLink = true → s.owner? = some i
  written : ∀ b ∈ s.written, Begun actions versions b
  calling : ∀ i p, s.tasks[i]? = some p → ∀ id k, p = .reading id k →
    numbered Posted.call? s.written = s.delivered.map Delivery.call ++ [(k, i, id)]
  quiet : s.Quiet → numbered Posted.call? s.written = s.delivered.map Delivery.call
  opened : s.server.Open
  order : s.server.InOrder service verdict st (s.written.map Posted.frame)
  stream : s.delivered.map Delivery.reply <+: s.server.written

variable {actions : List Action} {versions : List Version} {st : σ}

theorem sound_start (n : Nat) :
    (start versions n st).Sound service verdict actions versions st := by
  -- all tasks are idle
  have hidle {i : Nat} {p : LinkProgress} (h : (List.replicate n LinkProgress.idle)[i]? = some p) :
      p = .idle := List.eq_of_mem_replicate (List.mem_of_getElem? h)
  refine ⟨?_, ?_, ?_, nofun, ?_, fun _ => rfl, ⟨rfl, nofun⟩, Serving.inOrder_start [],
    List.nil_prefix⟩
  · show (versions.map fun v => Client.mk v 1).map Client.version = versions
    rw [List.map_map]
    exact List.map_id' versions
  · intro i p hp
    rw [hidle hp]
    exact nofun
  · intro i p hp
    rw [hidle hp]
    exact nofun
  · intro i p hp
    rw [hidle hp]
    exact nofun

/-- Only one task has the link. -/
theorem Sound.sole_holder (hs : s.Sound service verdict actions versions st) {i j : Nat}
    {p q : LinkProgress} (hi : s.tasks[i]? = some p) (hp : p.holdsLink = true)
    (hj : s.tasks[j]? = some q) (hq : q.holdsLink = true) : j = i :=
  Option.some.inj ((hs.holder j q hj hq).symm.trans (hs.holder i p hi hp))

/-- While a task is about to write, none waits for a reply. -/
theorem Sound.quiet_of_writing (hs : s.Sound service verdict actions versions st) {i : Nat}
    {b : Sent} (hi : s.tasks[i]? = some (.writing b)) : s.Quiet := by
  intro j id k hj
  obtain rfl := hs.sole_holder hi rfl hj rfl
  exact nomatch hi.symm.trans hj

/-- What holds of the task that is put somewhere else and of all others holds of all tasks. -/
theorem forall_setTask {Q : Nat → LinkProgress → Prop} {i : Nat} {p : LinkProgress} (hp : Q i p)
    (hrest : ∀ j q, j ≠ i → s.tasks[j]? = some q → Q j q) :
    ∀ j q, (s.setTask i p).tasks[j]? = some q → Q j q :=
  forall_getElem?_set hp hrest

/-- A task that does not wait for a reply, before or after, makes no difference to who does. -/
theorem quiet_of_setTask {i : Nat} {p q : LinkProgress} (hi : s.tasks[i]? = some q)
    (hq : ∀ id k, q ≠ .reading id k) (h : (s.setTask i p).Quiet) : s.Quiet := by
  intro j id k hj
  refine h j id k ?_
  have hij : i ≠ j := by
    rintro rfl
    exact hq id k (Option.some.inj (hi.symm.trans hj))
  show (s.tasks.set i p)[j]? = _
  rw [List.getElem?_set, if_neg hij]
  exact hj

/-- A client that has gone on is still of its version. -/
theorem map_version_set {clients : List Client} {p : Nat} {c next : Client}
    (hclient : clients[p]? = some c) (hnext : next.version = c.version) :
    (clients.set p next).map Client.version = clients.map Client.version := by
  obtain ⟨hp, rfl⟩ := List.getElem?_eq_some_iff.mp hclient
  rw [List.map_set, hnext, ← List.getElem_map Client.version]
  · exact List.set_getElem_self _
  · rw [List.length_map]
    exact hp

/-! ## What the steps preserve -/

/-- An errand is begun. -/
theorem Sound.begun (hs : s.Sound service verdict actions versions st) {i p : Nat} {e : Errand}
    (ha : Action.begin i p e ∈ actions) {c next : Client} {b : Sent}
    (hidle : s.tasks[i]? = some .idle) (hclient : s.clients[p]? = some c)
    (hprepare : c.prepare e = .ok (b, next)) :
    { s.setTask i (.waiting b) with clients := s.clients.set p next }.Sound service verdict
      actions versions st where
  clients := (map_version_set hclient (Client.prepares_of_prepare hprepare).2).trans hs.clients
  prepared := by
    refine forall_setTask ?_ fun j q _ => hs.prepared j q
    rintro _ ⟨⟩
    refine ⟨p, e, c, next, ha, ?_, hprepare⟩
    rw [← hs.clients, List.getElem?_map, hclient]
    rfl
  holder := forall_setTask nofun fun j q _ => hs.holder j q
  written := hs.written
  calling := forall_setTask nofun fun j q _ => hs.calling j q
  quiet := fun hquiet => hs.quiet (quiet_of_setTask hidle nofun hquiet)
  opened := hs.opened
  order := hs.order
  stream := hs.stream

/-- A task takes the link. -/
theorem Sound.took (hs : s.Sound service verdict actions versions st) {i : Nat} {b : Sent}
    (howner : s.owner? = none) (hwaiting : s.tasks[i]? = some (.waiting b)) :
    { s.setTask i (.writing b) with owner? := some i }.Sound service verdict
      actions versions st where
  clients := hs.clients
  prepared := forall_setTask (hs.prepared i (.waiting b) hwaiting) fun j q _ => hs.prepared j q
  holder := by
    refine forall_setTask (fun _ => rfl) ?_
    intro j q _ hj hq
    exact nomatch howner.symm.trans (hs.holder j q hj hq)
  written := hs.written
  calling := forall_setTask nofun fun j q _ => hs.calling j q
  quiet := fun hquiet => hs.quiet (quiet_of_setTask hwaiting nofun hquiet)
  opened := hs.opened
  order := hs.order
  stream := hs.stream

/-- Once a task gives the link back, no task has it. -/
theorem Sound.released (hs : s.Sound service verdict actions versions st) {i : Nat}
    {p : LinkProgress} (hi : s.tasks[i]? = some p) (hp : p.holdsLink = true) :
    ∀ (j : Nat) (q : LinkProgress), (s.setTask i .idle).tasks[j]? = some q →
      q.holdsLink = false := by
  refine forall_setTask rfl ?_
  intro j q hji hj
  cases hq : q.holdsLink with
  | false => rfl
  | true => exact absurd (hs.sole_holder hi hp hj hq) hji

theorem Sound.written_post (hs : s.Sound service verdict actions versions st) {b : Posted}
    (hb : Begun actions versions b) : ∀ x ∈ (s.post b).written, Begun actions versions x :=
  List.forall_mem_append.mpr ⟨hs.written, List.forall_mem_singleton.mpr hb⟩

/-- A body that is written arrives behind the others. -/
theorem Sound.order_post (hs : s.Sound service verdict actions versions st) (b : Posted) :
    (s.post b).server.InOrder service verdict st ((s.post b).written.map Posted.frame) := by
  show (s.server.arrive b.frame).InOrder service verdict st ((s.written ++ [b]).map Posted.frame)
  rw [List.map_append]
  exact hs.order.arrive hs.opened b.frame

/-- The holder writes the body of a call. -/
theorem Sound.called (hs : s.Sound service verdict actions versions st) {i : Nat} {id : Id}
    {body : ByteArray} (hwriting : s.tasks[i]? = some (.writing (.call id body))) :
    ((s.post ⟨i, .call id body⟩).setTask i (.reading id s.written.length)).Sound service verdict
      actions versions st where
  clients := hs.clients
  prepared := forall_setTask nofun fun j q _ => hs.prepared j q
  holder := forall_setTask (fun _ => hs.holder i _ hwriting rfl) fun j q _ => hs.holder j q
  written := hs.written_post (hs.prepared i _ hwriting _ rfl)
  calling := by
    refine forall_setTask ?_ ?_
    · rintro _ _ ⟨⟩
      show numbered Posted.call? (s.written ++ [_]) = _
      rw [numbered_concat, hs.quiet (hs.quiet_of_writing hwriting)]
      rfl
    · rintro j q - hj id k rfl
      exact absurd hj (hs.quiet_of_writing hwriting j id k)
  quiet := by
    intro hquiet
    refine absurd ?_ (hquiet i id s.written.length)
    -- the task that has just written waits for a reply
    obtain ⟨hlt, -⟩ := List.getElem?_eq_some_iff.mp hwriting
    exact List.getElem?_set_self hlt
  opened := hs.opened.arrive _
  order := hs.order_post _
  stream := hs.stream

/-- The holder writes the body of a notification and gives the link back. -/
theorem Sound.notified (hs : s.Sound service verdict actions versions st) {i : Nat}
    {body : ByteArray} (hwriting : s.tasks[i]? = some (.writing (.notification body))) :
    { (s.post ⟨i, .notification body⟩).setTask i .idle with owner? := none }.Sound service verdict
      actions versions st where
  clients := hs.clients
  prepared := forall_setTask nofun fun j q _ => hs.prepared j q
  holder := by
    intro j q hj hq
    exact nomatch (hs.released hwriting rfl j q hj).symm.trans hq
  written := hs.written_post (hs.prepared i _ hwriting _ rfl)
  calling := by
    rintro j q hj id k rfl
    exact nomatch hs.released hwriting rfl j _ hj
  quiet := by
    intro _
    show numbered Posted.call? (s.written ++ [_]) = _
    rw [numbered_concat, hs.quiet (hs.quiet_of_writing hwriting)]
    exact List.append_nil _
  opened := hs.opened.arrive _
  order := hs.order_post _
  stream := hs.stream

/-- The server makes a step. -/
theorem Sound.served (hs : s.Sound service verdict actions versions st) {a : Serving.Action}
    {c : Serving σ} (hserved : Serving.Step service verdict s.server a c)
    (hfailed : c.hasFailed = false) :
    { s with server := c }.Sound service verdict actions versions st := by
  obtain ⟨hopened, hprefix⟩ := hserved.stays_open hfailed hs.order hs.opened
  exact { hs with
    opened := hopened
    order := hserved.inOrder hfailed hs.order
    stream := hs.stream.trans hprefix }

/-- The holder reads the next reply and gives the link back. -/
theorem Sound.read (hs : s.Sound service verdict actions versions st) {i k : Nat} {id : Id}
    {reply : Frame} {rest : List Frame} (hreading : s.tasks[i]? = some (.reading id k))
    (hunread : s.unread = reply :: rest) :
    { s.setTask i .idle with
      owner? := none
      delivered := s.delivered ++ [Delivery.mk i id k reply] }.Sound service verdict
      actions versions st where
  clients := hs.clients
  prepared := forall_setTask nofun fun j q _ => hs.prepared j q
  holder := by
    intro j q hj hq
    exact nomatch (hs.released hreading rfl j q hj).symm.trans hq
  written := hs.written
  calling := by
    rintro j q hj id k rfl
    exact nomatch hs.released hreading rfl j _ hj
  quiet := by
    intro _
    rw [List.map_append]
    exact hs.calling i _ hreading id k rfl
  opened := hs.opened
  order := hs.order
  stream := by
    -- what has been read and the next reply are still what the server wrote first
    have hstream := List.prefix_iff_eq_append.mp hs.stream
    rw [List.length_map, show s.server.written.drop s.delivered.length = reply :: rest from hunread]
      at hstream
    show (s.delivered ++ [_]).map Delivery.reply <+: s.server.written
    rw [← hstream, List.map_append]
    exact ⟨rest, List.append_assoc _ _ _⟩

/-- A step keeps to the use that should be made of a link. -/
theorem Step.sound (h : Step service verdict s a t) (ha : a ∈ actions)
    (hfailed : t.server.hasFailed = false) (hs : s.Sound service verdict actions versions st) :
    t.Sound service verdict actions versions st := by
  cases h with
  | refused => exact hs
  | begun hidle hclient hprepare => exact hs.begun ha hidle hclient hprepare
  | took howner hwaiting => exact hs.took howner hwaiting
  | called hwriting => exact hs.called hwriting
  | notified hwriting => exact hs.notified hwriting
  | served hserved => exact hs.served hserved hfailed
  | read hreading hunread => exact hs.read hreading hunread

/-- As long as the connection stays open, a link that is fresh at the beginning is used as it should
    be. -/
theorem sound_of_run? {n : Nat}
    (hrun : run? service verdict actions (start versions n st) = some s)
    (hfailed : s.server.hasFailed = false) : s.Sound service verdict actions versions st := by
  refine preserved_of_run? (P := fun s => s.server.hasFailed = false →
    s.Sound service verdict actions versions st) ?_ hrun (fun _ => sound_start n) hfailed
  intro a ha s t hstep hs hfailed
  exact hstep.sound ha hfailed (hs (hstep.hasFailed_of_not hfailed))

end SharedLink

end Switchboard
