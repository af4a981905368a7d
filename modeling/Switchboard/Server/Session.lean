import Switchboard.Client.Dial
import Switchboard.Client.Basic
import Switchboard.Server.Draft
import Switchboard.Socket.Link
import Switchboard.Socket.Serving

/-!
# Sessions

A session is a server that runs, together with the connections to it, which have names. A plain
connection exchanges frames; a connection of a client carries its calls. The verdict
about the caller is given at the handshake and stays with the connection. Where the network lets no
connection come about, none is ever there.
-/

namespace Switchboard

/-- A connection to a server: a plain one on which frames are exchanged as long as it is open, or
    one on which a client calls methods. The verdict is the one about its caller. -/
inductive Connection where
  | plain (verdict isOpen : Bool)
  | client (verdict : Bool) (client : Client) (link : Link)
deriving DecidableEq

/-- What comes back on a plain connection: a frame or the end of the connection. -/
inductive Return where
  | frame (f : Frame)
  | closed
deriving DecidableEq

/-- A server that runs in a network, with the state of the application and the connections to it by
    name. -/
structure Session (σ : Type) where
  server : Server σ
  network : Network
  state : σ
  connections : List (String × Connection) := []

namespace Session

variable {σ : Type}

/-- The connection of a name. -/
def find? (s : Session σ) (name : String) : Option Connection := s.connections.lookup name

/-- The session without the connection of a name. -/
def erase (s : Session σ) (name : String) : Session σ :=
  { s with connections := s.connections.filter fun c => c.1 ≠ name }

/-- Puts a connection under a name, in place of the one there. -/
def insert (s : Session σ) (name : String) (c : Connection) : Session σ :=
  { s with connections := (name, c) :: (s.erase name).connections }

/-- Opens a plain connection with headers, if the network lets it come about. -/
def openPlain? (s : Session σ) (name : String) (headers : Headers) : Option (Session σ) :=
  if s.network.isReachable s.server.address then
    some (s.insert name (.plain (s.server.verdict headers) true))
  else none

/-- Whether something that is no handshake is upgraded to a connection: it never is, but where no
    connection comes about not even that can be told. -/
def upgradesGarbage? (s : Session σ) : Option Bool :=
  if s.network.isReachable s.server.address then some false else none

/-- Connects a client with or without a token. -/
def connect (s : Session σ) (name : String) (version : Version) (token? : Option String) :
    Except Fault (Session σ) := do
  let headers ← s.network.connect s.server.address token?
  .ok (s.insert name (.client (s.server.verdict headers) ⟨version, 1⟩ {}))

/-- What comes back for something that arrives on an open plain connection, and whether the
    connection stays open. -/
def react (s : Session σ) (verdict : Bool) : Incoming → Act σ (List Return × Bool)
  | .data f => do
    let reply? ← s.server.service.answerFrame verdict f
    return (reply?.toList.map .frame, true)
  | .control => Act.pure ([], true)
  | .close | .failure | .ended => Act.pure ([.closed], false)

/-- Sends something on a plain connection; `none` if there is none of the name. -/
def exchange? (s : Session σ) (name : String) (i : Incoming) :
    Option (List Return × Session σ × Journal) :=
  match s.find? name with
  | some (.plain verdict true) =>
    let ((back, isOpen), state, j) := s.react verdict i s.state
    some (back, { s.insert name (.plain verdict isOpen) with state := state }, j)
  | some (.plain _ false) => some ([.closed], s, [])
  | _ => none

/-- What the server sends in return for a text on a connection. -/
def responder (s : Session σ) (verdict : Bool) : Responder σ := fun body => do
  let reply? ← s.server.service.answerFrame verdict (.text body)
  return reply?.toList.map .data

/-- Lets a client do something over its connection; `none` if there is no client of
    the name. -/
def onClient? {α : Type} (s : Session σ) (name : String)
    (f : Carrier (Link × σ) → Client → Act (Link × σ) (α × Client)) :
    Option (α × Session σ × Journal) :=
  match s.find? name with
  | some (.client verdict client link) =>
    let ((a, client), (link, state), j) :=
      f (Link.carrier (s.responder verdict)) client (link, s.state)
    some (a, { s.insert name (.client verdict client link) with state := state }, j)
  | _ => none

/-- Closes the connection of a client; `none` if there is no client of the name. -/
def closeClient? (s : Session σ) (name : String) : Option (Except Fault Unit × Session σ) :=
  match s.find? name with
  | some (.client verdict client link) =>
    let (r, link) := link.close
    some (r, s.insert name (.client verdict client link))
  | _ => none

end Session

end Switchboard
