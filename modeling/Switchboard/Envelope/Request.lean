import Switchboard.Envelope.Id
import Switchboard.Envelope.Params
import Switchboard.Envelope.Version
import Switchboard.Fault
import Switchboard.Kind

/-!
# Requests

A request is looked at in two ways. `Request` is the envelope as a client writes it, every member
of it, and `Request.read` is the reader that belongs to its shape. `Call` is what a server makes of
an envelope, with the version settled and an absent id told apart from a null one; `Call.ofJson`
refuses what is no request and says how much of it could still be understood, so that the answer
can carry the version and the id.
-/

namespace Switchboard

/-- A request as it is written: `tag?` is the text of the `jsonrpc` member, and without an id it
    has the null id. -/
structure Request where
  tag? : Option String
  method : String
  params : Params
  id : Id
deriving DecidableEq

namespace Request

/-- The request of a version. -/
def make (version : Version) (method : String) (params : Params) (id : Id) : Request :=
  ⟨version.tag?, method, params, id⟩

/-- The version that the request says it is of. -/
def version (r : Request) : Version := Version.ofMember (r.tag?.map .str)

/-- The request with its members in the order in which they are written. -/
def toJson (r : Request) : Json :=
  .obj (r.tag?.toList.map (fun t => ("jsonrpc", .str t)) ++
    [("method", .str r.method), ("params", r.params.toJson), ("id", r.id.toJson)])

/-- The text of the request. -/
def encode (r : Request) : String := r.toJson.render

/-- The shape that requests are read from. -/
def shape : Shape :=
  .record "JsonRpcRequest" [
    .mk "jsonrpc" (.nullable .text) (.take .null),
    .mk "method" .text .refuse,
    .mk "params" Params.shape (.take (.arr [])),
    .mk "id" .any (.take .null)]

/-- The request in the normal form of its shape. -/
def ofRecord (v : Json) : Request where
  tag? := (v.get? "jsonrpc").bind Json.asString?
  method := ((v.get? "method").bind Json.asString?).getD ""
  params := Params.ofContainer (Json.ofOption (v.get? "params"))
  id := ((v.get? "id").bind Id.read).getD .null

/-- Reads a request. -/
def read (v : Json) : Except Mismatch Request := (shape.read v).map ofRecord

end Request

/-- A request as a server understands it. It has no id if none was sent. -/
structure Call where
  version : Version
  method : String
  params : Params
  id? : Option Id
deriving DecidableEq

/-- Why a value is no request: it is a value of some other kind than an object, its method is no
    text or not there, its parameters are neither an array nor an object, or it gives them by name
    in a version that does not know that. -/
inductive Request.Defect where
  | notAnObject (kind : Kind)
  | methodNotText
  | noMethod
  | paramsNotContainer
  | namedParams
deriving DecidableEq, Repr

/-- The wording of a defect. -/
def Request.Defect.message : Request.Defect → String
  | .notAnObject kind => "Request must be an object, got " ++ kind.name
  | .methodNotText => "`method` must be a string"
  | .noMethod => "Request requires a `method` member"
  | .paramsNotContainer => "`params` must be an array or an object"
  | .namedParams => "JSON-RPC 1.0 requires positional parameters"

/-- A value that is no request, with the version and the id that the answer to it has to carry. The
    id of a value without a method is the null id. -/
structure Rejection where
  defect : Request.Defect
  version : Version
  id : Id
deriving DecidableEq

/-- The fault of a rejected request. -/
def Rejection.fault (r : Rejection) : Fault := .invalidRequest r.defect.message

namespace Call

/-- The id of the response: the one that was sent, or the null id. -/
def responseId (c : Call) : Id := c.id?.getD .null

/-- Whether no answer is wanted: without an id, and in version 1.0 also with the null id. -/
def isNotification (c : Call) : Bool :=
  match c.id? with
  | none => true
  | some id => c.version = .v1 && id.isNull

/-- Reads the members of a request whose version and method are known. -/
def ofParts (version : Version) (method : String) (params? : Option Json) (id? : Option Id) :
    Except Rejection Call :=
  let reject := fun defect => .error ⟨defect, version, id?.getD .null⟩
  match Params.ofMember? params? with
  | none => reject .paramsNotContainer
  | some params =>
    if params.isNamed && !version.allowsNamed then reject .namedParams
    else .ok ⟨version, method, params, id?⟩

/-- The request that a value is. -/
def ofJson : Json → Except Rejection Call
  | .obj members =>
    let version := Version.ofMember (members.lookup "jsonrpc")
    match members.lookup "method" with
    | some (.str method) =>
      ofParts version method (members.lookup "params") ((members.lookup "id").map Id.ofJson)
    | some _ => .error ⟨.methodNotText, version, .null⟩
    | none => .error ⟨.noMethod, version, .null⟩
  | v => .error ⟨.notAnObject (Kind.of v), .v1, .null⟩

end Call

end Switchboard
