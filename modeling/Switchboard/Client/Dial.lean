import Switchboard.Http.Bearer
import Switchboard.Http.Target
import Switchboard.Server.Network

/-!
# Making connections

A client that wants a connection says where to and perhaps presents a token. First the target is
looked at, then the token, and only then is the connection made, so of several things that are
wrong the first in this order is reported. A token that can stand in a header but is no plain text
shows as a failure of the handshake.

The connection and its handshake are not the client's own doing. `Network.connect` stands in for
them: they succeed where something listens, if all headers can be read as text.
-/

namespace Switchboard

namespace Network

/-- Whether something can be connected to at an address. -/
def isReachable (n : Network) (a : SocketAddress) : Bool := n.isConnected && n.taken.contains a

/-- Connects to an address with or without a token: the headers that the other end sees. -/
def connect (n : Network) (a : SocketAddress) (token? : Option String) : Except Fault Headers := do
  let headers ← BearerToken.headersOf token?
  if n.isReachable a && headers.all fun h => h.text?.isSome then .ok headers
  else .error (.transport "Connection refused")

/-- Connects to a target with or without a token: the headers that the other end sees. -/
def dial (n : Network) (target : String) (token? : Option String) : Except Fault Headers :=
  if Target.isRequestable target then
    match Target.endpoint? target with
    | some a => n.connect a token?
    | none => do
      let _ ← BearerToken.headersOf token?
      .error (.transport "Address not supported")
  else .error (.transport "Invalid target")

end Network

end Switchboard
