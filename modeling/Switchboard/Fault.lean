import Switchboard.Shape.Read

/-!
# Faults and error objects

A fault is a reason why a call does not end in a result, on either side of the wire. An error
object is what a response carries in place of a result: a code, a message and perhaps data.
`Fault.toErrorBody` is the one mapping from the first to the second. Faults about the call
itself keep their wording there; every other fault becomes an internal error whose data hold
what there is to say.
-/

namespace Switchboard

/-- The codes of error objects. -/
inductive ErrorCode where
  | parseError
  | invalidRequest
  | methodNotFound
  | invalidParams
  | internalError
  | authenticationRequired
deriving DecidableEq, Repr

/-- The number on the wire. The last one lies outside the reserved range, so that a caller can
    tell "log in and try again" from "mend your call". -/
def ErrorCode.number : ErrorCode → Int
  | .parseError => -32700
  | .invalidRequest => -32600
  | .methodNotFound => -32601
  | .invalidParams => -32602
  | .internalError => -32603
  | .authenticationRequired => 401

/-- The error member of a response: what sort of error it is, what went wrong in words, and what
    else there is to know about it. -/
structure ErrorBody where
  code : Int
  message : String
  data? : Option Json
deriving DecidableEq

namespace ErrorBody

/-- The error object without its data. -/
def withoutData (e : ErrorBody) : ErrorBody := { e with data? := none }

/-- An error object in one line, its data left out. -/
def line (e : ErrorBody) : String :=
  "[" ++ String.ofList (intDigits e.code) ++ "] " ++ e.message

/-- The error object as it is written, without a member for data that are absent. -/
def toJson (e : ErrorBody) : Json :=
  .obj ([("code", .ofInt e.code), ("message", .str e.message)] ++
    e.data?.toList.map fun d => ("data", d))

/-- The shape that error objects are read from. -/
def shape : Shape :=
  .record "JsonRpcErrorData" [
    .mk "code" (.integer .signed32) .refuse,
    .mk "message" .text .refuse,
    .mk "data" (.nullable .any) .refuse]

/-- The error object in the normal form of its shape; data that are `null` count as absent. -/
def ofRecord (v : Json) : ErrorBody where
  code := match v.get? "code" with
    | some (.num (.int n)) => n
    | _ => 0
  message := ((v.get? "message").bind Json.asString?).getD ""
  data? := (v.get? "data").filter fun d => !d.isNull

/-- Reads an error object. -/
def read (v : Json) : Except Mismatch ErrorBody := (shape.read v).map ofRecord

end ErrorBody

/-- Why a call does not end in a result. The other side answered with an error object (`remote`);
    the call is not what it should be or not for this caller; the server failed (`internal`); the
    text of a signature is none; a value cannot be written or is not of the wanted type
    (`serialization`); a body did not reach the other side or nothing came back (`transport`); or
    the library was used in a way that it does not support (`usage`). -/
inductive Fault where
  | remote (e : ErrorBody)
  | parse (detail : String)
  | invalidRequest (reason : String)
  | methodNotFound (method : String)
  | invalidParams (reason : String)
  | unauthenticated (method : String)
  | internal (detail : String)
  | invalidSignature (text reason : String)
  | serialization (detail : String)
  | transport (detail : String)
  | usage (reason : String)
deriving DecidableEq

namespace Fault

/-- A fault in words. -/
def message : Fault → String
  | .remote e => "JSON-RPC error: " ++ e.line
  | .parse detail => "Parse error: " ++ detail
  | .invalidRequest reason => "Invalid request: " ++ reason
  | .methodNotFound method => "Method not found: " ++ method
  | .invalidParams reason => "Invalid params: " ++ reason
  | .unauthenticated method => "Authentication required: " ++ method
  | .internal detail => "Internal error: " ++ detail
  | .invalidSignature text reason => "Invalid signature `" ++ text ++ "`: " ++ reason
  | .serialization detail => "Serialization error: " ++ detail
  | .transport detail => "Transport error: " ++ detail
  | .usage reason => reason

/-- Whether a fault is about the call, so that the caller is told of it as it is. -/
def isProtocol : Fault → Bool
  | .remote _ | .invalidRequest _ | .methodNotFound _ | .invalidParams _ | .unauthenticated _ =>
    true
  | .parse _ | .internal _ | .invalidSignature _ _ | .serialization _ | .transport _
  | .usage _ => false

/-- The error object of an internal error with something to say about it. -/
def internalBody (detail : String) : ErrorBody where
  code := ErrorCode.internalError.number
  message := "Internal error"
  data? := some (.object [("detail", .str detail)])

/-- The error object that answers a call that failed. -/
def toErrorBody : Fault → ErrorBody
  | .remote e => e
  | .parse _ => ⟨ErrorCode.parseError.number, "Parse error", none⟩
  | .invalidRequest reason => ⟨ErrorCode.invalidRequest.number, reason, none⟩
  | .methodNotFound method =>
    ⟨ErrorCode.methodNotFound.number, "Method not found: " ++ method, none⟩
  | .invalidParams reason => ⟨ErrorCode.invalidParams.number, reason, none⟩
  | .unauthenticated method =>
    ⟨ErrorCode.authenticationRequired.number, "Authentication required",
      some (.object [("method", .str method)])⟩
  | .internal detail => internalBody detail
  | .invalidSignature text reason => internalBody (Fault.invalidSignature text reason).message
  | .serialization detail => internalBody (Fault.serialization detail).message
  | .transport detail => internalBody (Fault.transport detail).message
  | .usage reason => internalBody reason

/-- The fault of a value that is not of the type that a caller of the library asked for. -/
def ofMismatch (m : Mismatch) : Fault := .serialization m.message

end Fault

end Switchboard
