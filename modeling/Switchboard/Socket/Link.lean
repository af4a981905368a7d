import Switchboard.Client.Carrier
import Switchboard.Socket.Frame
import Switchboard.Text.Utf8

/-!
# Links

A link is the client's end of a connection. A body goes out as a text frame, and the next data
frame that arrives is taken for the answer, whatever it was meant for. What the other end does with
a frame is not the link's business: a `Responder` says what it sends in return, and a link together
with a responder is a carrier.
-/

namespace Switchboard

/-- The other end of a link: what it sends in return for a text. -/
abbrev Responder (σ : Type) := ByteArray → Act σ (List Incoming)

/-- The client's end of a connection: what has arrived and has not been read, and whether frames
    can be sent. -/
structure Link where
  inbox : List Incoming := []
  isOpen : Bool := true
deriving DecidableEq

namespace Link

variable {σ : Type}

/-- Reads up to the next data frame. The link is no longer open once its end has been read. -/
def receive : List Incoming → Except Fault ByteArray × Link
  | [] => (.error (.transport "No reply arrived"), {})
  | .data f :: rest => (.ok f.body, { inbox := rest })
  | .control :: rest => receive rest
  | .failure :: rest => (.error (.transport "Connection reset"), ⟨rest, false⟩)
  | .close :: rest | .ended :: rest =>
    (.error (.transport "Connection closed before a reply arrived"), ⟨rest, false⟩)

/-- Sends a body as a text frame; what comes in return is put behind what has arrived. -/
def write (peer : Responder σ) (body : ByteArray) : Act (Link × σ) (Except Fault Unit) :=
  fun (link, s) =>
    match Text.utf8Fault? body with
    | some f => (.error (.serialization f.message), (link, s), [])
    | none =>
      if link.isOpen then
        let (arrived, s, j) := peer body s
        (.ok (), ({ link with inbox := link.inbox ++ arrived }, s), j)
      else (.error (.transport "Connection closed"), (link, s), [])

/-- Takes the answer to a body that has been sent. -/
def read : Act (Link × σ) (Except Fault ByteArray) := fun (link, s) =>
  let (reply, link) := receive link.inbox
  (reply, (link, s), [])

/-- The carrier over a link. A body that wants no answer is only sent. -/
def carrier (peer : Responder σ) : Carrier (Link × σ) where
  send body := do
    match ← write peer body with
    | .error f => return .error f
    | .ok () => read
  notify body := write peer body

/-- Closes the link. -/
def close (link : Link) : Except Fault Unit × Link :=
  if link.isOpen then (.ok (), { link with isOpen := false })
  else (.error (.transport "Connection closed"), link)

end Link

/-- An end that answers by a script: for each text that it receives the next list of frames. It
    keeps what it has received. -/
structure ScriptedPeer where
  script : List (List Incoming)
  received : List ByteArray := []
deriving DecidableEq

/-- What a scripted end does with a text. -/
def ScriptedPeer.respond : Responder ScriptedPeer := fun body p =>
  match p.script with
  | [] => ([], { p with received := p.received ++ [body] }, [])
  | frames :: rest => (frames, ⟨rest, p.received ++ [body]⟩, [])

end Switchboard
