import Switchboard.Fault
import Switchboard.Http.Address

/-!
# The network of a host

The addresses that are taken on a host, and whether connections come about there. A server binds an
address, which has to be free; the socket number zero stands for any free one.

All of this is up to the operating system, and what is here stands in for it. Which free socket is
given out is a choice of its own: that it is the least one is not relied on anywhere.
-/

namespace Switchboard

/-- The network that a host sees: the addresses that are listened on, and whether connections that
    are asked for come about. -/
structure Network where
  taken : List SocketAddress := []
  isConnected : Bool := true
deriving DecidableEq, Repr

namespace Network

/-- The network of a host on which no connection comes about. -/
def isolated : Network := { isConnected := false }

/-- The least socket number that is given out where any will do. -/
def firstFreeSocket : Nat := 49152

/-- The address that stands for an asked one: the first free one of the host if any socket
    will do. -/
def resolve? (n : Network) (a : SocketAddress) : Option SocketAddress :=
  if a.socket = 0 then
    ((List.range (UInt16.size - firstFreeSocket)).map fun i =>
      { a with socket := (firstFreeSocket + i).toUInt16 }).find? fun b => !n.taken.contains b
  else if n.taken.contains a then none
  else some a

/-- Takes an address. -/
def bind (n : Network) (a : SocketAddress) : Except Fault (SocketAddress × Network) :=
  match n.resolve? a with
  | some b => .ok (b, { n with taken := b :: n.taken })
  | none => .error (.transport "Address already in use")

end Network

end Switchboard
