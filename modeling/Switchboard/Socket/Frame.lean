import Switchboard.Text.Utf8

/-!
# Frames

What travels on a socket after the handshake. Bodies travel in data frames, as text or as bytes.
The reader of a socket may instead find a control frame, which is not for it, or that the other
side has closed the connection, that the socket has failed, or that the stream has ended.
-/

namespace Switchboard

/-- A frame that carries a body, as text or as bytes. -/
inductive Frame where
  | text (body : ByteArray)
  | binary (body : ByteArray)
deriving DecidableEq

/-- The body that a frame carries. -/
def Frame.body : Frame → ByteArray
  | .text body => body
  | .binary body => body

/-- The frame of the same sort with another body. -/
def Frame.withBody : Frame → ByteArray → Frame
  | .text _, body => .text body
  | .binary _, body => .binary body

/-- What the reader of a socket finds next: a frame with a body, a ping or a pong (`control`), the
    wish of the other side to close, a failure of the socket or what is no frame, or the end of the
    stream. -/
inductive Incoming where
  | data (f : Frame)
  | control
  | close
  | failure
  | ended
deriving DecidableEq

/-- Whether nothing can come after this. -/
def Incoming.isEnd : Incoming → Bool
  | .data _ | .control => false
  | .close | .failure | .ended => true

end Switchboard
