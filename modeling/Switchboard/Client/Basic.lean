import Switchboard.Client.Carrier

/-!
# Clients

A client calls the methods of a service. It speaks one version of the protocol and gives its calls
the ids 1, 2, 3 and so on. Before an id is taken it sees to it that the version
allows the parameters, so a call that is refused leaves no gap. A call that fails on the way keeps
its id, and no later call gets it.
-/

namespace Switchboard

/-- What calls the methods of a service: the version of the protocol that it speaks, and the id of
    its next call. -/
structure Client where
  version : Version := .v1
  nextId : UInt64 := 1
deriving DecidableEq, Repr

namespace Client

variable {σ : Type}

/-- Whether parameters may be given in the version of the client; by name they may not be given in
    version 1.0. -/
def check (version : Version) (params : Params) : Except Fault Unit :=
  if params.isNamed && !version.allowsNamed then
    .error (.usage ("Unsupported arg type for JSON-RPC 1.0 (the default version for this client, "
      ++ "pass version=\"2.0\" to use keyword arguments)"))
  else .ok ()

/-- Takes the id of a call. -/
def takeId (c : Client) : Id × Client :=
  (.ofNat c.nextId.toNat, { c with nextId := c.nextId + 1 })

/-- The body of a call. -/
def callBody (version : Version) (method : String) (params : Params) (id : Id) : ByteArray :=
  (Request.make version method params id).encode.toUTF8

/-- A notification with its members sorted by key. Version 1.0 marks it by a null id and version
    2.0 by none at all. -/
def notification (version : Version) (method : String) (params : Params) : Json :=
  .object (version.tag?.toList.map (fun t => ("jsonrpc", .str t)) ++
    [("method", .str method), ("params", params.toJson)] ++
    match version with
    | .v1 => [("id", .null)]
    | .v2 => [])

/-- The body of a notification. -/
def notificationBody (version : Version) (method : String) (params : Params) : ByteArray :=
  (notification version method params).render.toUTF8

/-- What the answer to a call with an id means. An answer with another id is noted and taken all
    the same. -/
def outcome (id : Id) (reply : ByteArray) : Act σ (Except Fault Json) :=
  match Response.decode reply with
  | .error f => Act.pure (.error f)
  | .ok r => do
    if r.id ≠ id then Act.note (.idMismatch id r.id)
    match r.error? with
    | some e =>
      Act.note (.callFailed e)
      return .error (.remote e)
    | none => return .ok (Json.ofOption r.result?)

/-- Sends the body of a call and makes sense of the answer. -/
def exchange (carrier : Carrier σ) (body : ByteArray) (id : Id) : Act σ (Except Fault Json) := do
  match ← carrier.send body with
  | .error f => return .error f
  | .ok reply => outcome id reply

/-- Calls a method. -/
def call (c : Client) (carrier : Carrier σ) (method : String) (params : Params) :
    Act σ (Except Fault Json × Client) :=
  Act.inside (.call method c.version) <|
    match check c.version params with
    | .error f => Act.pure (.error f, c)
    | .ok () => do
      let (id, next) := c.takeId
      let result ← exchange carrier (callBody c.version method params id) id
      return (result, next)

/-- Reads the result of a call as a value of some shape. -/
def readResult (shape : Shape) (result : Except Fault Json) : Except Fault Json := do
  let v ← result
  match shape.read v with
  | .ok v => .ok v
  | .error m => .error (.ofMismatch m)

/-- Calls a method whose result has some shape. -/
def callAs (c : Client) (carrier : Carrier σ) (shape : Shape) (method : String) (params : Params) :
    Act σ (Except Fault Json × Client) := do
  let (result, next) ← c.call carrier method params
  return (readResult shape result, next)

/-- Notifies a method: there is no id and no result. -/
def notify (c : Client) (carrier : Carrier σ) (method : String) (params : Params) :
    Act σ (Except Fault Unit) :=
  Act.inside (.notify method c.version) <|
    match check c.version params with
    | .error f => Act.pure (.error f)
    | .ok () => carrier.notify (notificationBody c.version method params)

/-- The client in one line, for diagnosis. -/
def summary (c : Client) : String :=
  "ServiceProxy \x7b version: " ++ (match c.version with
    | .v1 => "V1"
    | .v2 => "V2") ++ ", next_id: " ++ toString c.nextId.toNat ++ " \x7d"

end Client

end Switchboard
