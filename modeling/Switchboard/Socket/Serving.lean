import Switchboard.Service
import Switchboard.Socket.Frame

/-!
# Serving a connection

Two activities serve a connection. One reads what arrives, has the bodies answered and puts the
replies into a channel; the other takes replies from the channel and writes them to the socket.
Their steps may come in any order, so the connection is a system of actions: `Serving.step?` says
what an action does to the connection, if it is possible, and `Serving.run?` carries out a list of
them.

The verdict about the caller is settled at the handshake and holds for all that is read. A reply
goes into a frame of the same sort as the request, and a body that wants no answer gets none. After
the end of what arrives the writer goes on until the channel is empty. If it fails to write, the
reader stops too.
-/

namespace Switchboard

namespace Service

variable {σ : Type}

/-- Answers a frame with a frame of the same sort, if an answer is wanted. -/
def answerFrame (service : Service σ) (authenticated : Bool) (f : Frame) :
    Act σ (Option Frame) := do
  let o ← service.answer f.body authenticated
  return o.replyBody?.map fun text => f.withBody text.toUTF8

end Service

/-- A connection that is being served: what arrives and has not been read, the frames that have
    been read, the replies that wait to be written and those that have been handed to the socket,
    all in order. The reader and the writer go on until they stop, and it is kept whether a reply
    was lost because it could not be written. -/
structure Serving (σ : Type) where
  state : σ
  inbound : List Incoming
  handled : List Frame := []
  channel : List Frame := []
  written : List Frame := []
  isReading : Bool := true
  isWriting : Bool := true
  hasFailed : Bool := false

namespace Serving

variable {σ : Type}

/-- What can happen while a connection is served: the reader takes what arrives next, the writer
    hands the next reply to the socket, which may not take it (`failWrite`), the writer closes the
    socket after the last reply (`finish`), or the reader is stopped because the writer has
    ended. -/
inductive Action where
  | read
  | write
  | failWrite
  | finish
  | stop
deriving DecidableEq, Repr

/-- Reads one frame. Where the writer has ended a reply cannot be put into the channel, and the
    reader ends too. -/
def handle (service : Service σ) (authenticated : Bool) (c : Serving σ) (f : Frame)
    (rest : List Incoming) : Serving σ :=
  let (reply?, state, _) := service.answerFrame authenticated f c.state
  let c := { c with state := state, inbound := rest, handled := c.handled ++ [f] }
  match reply? with
  | none => c
  | some reply =>
    if c.isWriting then { c with channel := c.channel ++ [reply] }
    else { c with isReading := false }

/-- The reader's step. -/
def read? (service : Service σ) (authenticated : Bool) (c : Serving σ) : Option (Serving σ) :=
  if c.isReading then
    match c.inbound with
    | [] => none
    | .data f :: rest => some (handle service authenticated c f rest)
    | .control :: rest => some { c with inbound := rest }
    | _ :: rest => some { c with inbound := rest, isReading := false }
  else none

/-- The connection after an action, if the action is possible. -/
def step? (service : Service σ) (authenticated : Bool) (c : Serving σ) :
    Action → Option (Serving σ)
  | .read => read? service authenticated c
  | .write =>
    match c.isWriting, c.channel with
    | true, f :: rest => some { c with channel := rest, written := c.written ++ [f] }
    | _, _ => none
  | .failWrite =>
    match c.isWriting, c.channel with
    | true, _ :: rest => some { c with channel := rest, isWriting := false, hasFailed := true }
    | _, _ => none
  | .finish =>
    if c.isWriting && !c.isReading && c.channel.isEmpty then some { c with isWriting := false }
    else none
  | .stop => if c.isReading && !c.isWriting then some { c with isReading := false } else none

/-- The connection after a list of actions, if each is possible in its turn. -/
def run? (service : Service σ) (authenticated : Bool) :
    List Action → Serving σ → Option (Serving σ)
  | [], c => some c
  | a :: rest, c => (step? service authenticated c a).bind (run? service authenticated rest)

/-- Whether the connection is no longer served. -/
def isOver (c : Serving σ) : Bool := !c.isReading && !c.isWriting

/-- A frame arrives behind what has arrived before. -/
def arrive (c : Serving σ) (f : Frame) : Serving σ :=
  { c with inbound := c.inbound ++ [.data f] }

/-- A connection of which nothing has been read. -/
def start (state : σ) (inbound : List Incoming) : Serving σ where
  state := state
  inbound := inbound

end Serving

/-- The replies to frames that are answered one after another. -/
def Service.answerFrames {σ : Type} (service : Service σ) (authenticated : Bool) :
    List Frame → Act σ (List Frame)
  | [] => Act.pure []
  | f :: rest => do
    let reply? ← service.answerFrame authenticated f
    let replies ← service.answerFrames authenticated rest
    return reply?.toList ++ replies

end Switchboard
