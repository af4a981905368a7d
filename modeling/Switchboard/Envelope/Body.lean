import Switchboard.Fault
import Switchboard.Json.Reader

/-!
# Request bodies

A body holds one envelope, or several of them in an array, a batch. An empty array is no batch.
-/

namespace Switchboard

/-- What the body of a message to a server holds: one envelope or a batch of them. -/
inductive Body where
  | single (v : Json)
  | batch (items : List Json)
deriving DecidableEq

/-- Why nothing can be made of a body: it is no JSON text, or it is an empty array. -/
inductive Undecodable where
  | notJson
  | emptyBatch
deriving DecidableEq, Repr

/-- The fault of a body that nothing can be made of. -/
def Undecodable.fault : Undecodable → Fault
  | .notJson => .parse "malformed JSON"
  | .emptyBatch => .invalidRequest "Batch cannot be empty"

namespace Body

/-- What a value is as a body. -/
def ofJson : Json → Except Undecodable Body
  | .arr [] => .error .emptyBatch
  | .arr items => .ok (.batch items)
  | v => .ok (.single v)

/-- What the bytes of a message hold. -/
def decode (body : ByteArray) : Except Undecodable Body :=
  match Json.ofBytes? body with
  | none => .error .notJson
  | some v => ofJson v

end Body

end Switchboard
