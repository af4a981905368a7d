import Switchboard.Envelope.Id
import Switchboard.Envelope.Version
import Switchboard.Fault
import Switchboard.Json.Reader

/-!
# Responses

A response carries the id of its request and either a result or an error object. A result that is
`null` is a result all the same, so presence is told apart from `null`. When a body holds both,
the error object wins.
-/

namespace Switchboard

/-- The answer to a call: the text of the `jsonrpc` member if there is one, the result or the error
    object that the call ended in, and the id of the call. -/
structure Response where
  tag? : Option String
  result? : Option Json
  error? : Option ErrorBody
  id : Id
deriving DecidableEq

namespace Response

/-- The answer to a call that ended in a result. -/
def success (version : Version) (result : Json) (id : Id) : Response :=
  ⟨version.tag?, some result, none, id⟩

/-- The answer to a call that failed. -/
def failure (version : Version) (error : ErrorBody) (id : Id) : Response :=
  ⟨version.tag?, none, some error, id⟩

/-- The response with its members in the order in which they are written; what is absent is left
    out, but the id is always there. -/
def toJson (r : Response) : Json :=
  .obj (r.tag?.toList.map (fun t => ("jsonrpc", .str t)) ++
    r.result?.toList.map (fun v => ("result", v)) ++
    r.error?.toList.map (fun e => ("error", e.toJson)) ++
    [("id", r.id.toJson)])

/-- The text of the response. -/
def encode (r : Response) : String := r.toJson.render

/-- The shape that responses are read from. -/
def shape : Shape :=
  .record "JsonRpcResponse" [
    .mk "jsonrpc" (.nullable .text) (.take .null),
    .mk "result" .any .leaveOut,
    .mk "error" (.nullable ErrorBody.shape) (.take .null),
    .mk "id" .any (.take .null)]

/-- The response in the normal form of its shape. -/
def ofRecord (v : Json) : Response where
  tag? := (v.get? "jsonrpc").bind Json.asString?
  result? := v.get? "result"
  error? := ((v.get? "error").filter fun e => !e.isNull).map ErrorBody.ofRecord
  id := Id.ofJson (Json.ofOption (v.get? "id"))

/-- Reads a response as it stands, whether it makes sense or not. -/
def read (v : Json) : Except Mismatch Response := (shape.read v).map ofRecord

/-- A response that has been read, with exactly one of result and error: an error object takes
    precedence, and a response with neither is none. -/
def settle (r : Response) : Except Fault Response :=
  if r.error?.isSome then .ok { r with result? := none }
  else if r.result?.isSome then .ok r
  else .error (.invalidRequest "Response must contain `result` or `error`")

/-- The response that a body holds. -/
def decode (body : ByteArray) : Except Fault Response :=
  match Json.ofBytes? body with
  | none => .error (.parse "malformed JSON")
  | some v =>
    match read v with
    | .error m => .error (.ofMismatch m)
    | .ok r => r.settle

end Response

end Switchboard
