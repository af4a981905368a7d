import Switchboard.Envelope.Body
import Switchboard.Envelope.Response
import Switchboard.Method.Violation
import Switchboard.Method.Table

/-!
# Services

A service answers the body of a message with the methods of a table. Each envelope of the body gets
exactly one reply, in order, whatever happens to it: it may be no request, name no method, come from
a caller who is not allowed to, carry parameters that do not fit, or make its handler fail or panic.
What nothing can be made of gets one reply as a whole.

The state of the application is threaded through the handlers in the order of the envelopes, and
everything worth noting goes into the journal.
-/

namespace Switchboard

/-- The rules that hold for all methods of a service: whether only known callers may call methods
    that are not safe, whether callers are not told the data of internal errors, and whether they
    may ask for the listing of all methods. -/
structure Policy where
  requireAuthentication : Bool := false
  redactInternal : Bool := false
  introspection : Bool := false
deriving DecidableEq, Repr

/-- The policy in one line, for diagnosis. -/
def Policy.summary (p : Policy) : String :=
  "DispatcherConfig \x7b require_authentication: " ++ toString p.requireAuthentication ++
    ", redact_internal_errors: " ++ toString p.redactInternal ++
    ", introspection: " ++ toString p.introspection ++ " \x7d"

/-- The name under which the listing of all methods is asked for, unless a method has it. -/
def describeMethod : String := "system.describe"

/-- The answer to one envelope, and whether none is wanted. -/
structure Reply where
  response : Response
  isNotification : Bool
deriving DecidableEq

/-- The answers to the envelopes of a body in their order, and whether the body was a batch. -/
structure Replies where
  replies : List Reply
  isBatch : Bool
deriving DecidableEq

namespace Replies

/-- The answer to a body that is not a batch. -/
def single (r : Reply) : Replies := ⟨[r], false⟩

/-- Whether no answer is wanted to any of the envelopes. -/
def isNotification (o : Replies) : Bool := o.replies.all (·.isNotification)

/-- Responses as a body: a lone one to a body that is not a batch stands for itself, and all
    others are put in an array. -/
def bodyOf (isBatch : Bool) : List Response → Json
  | [r] => if isBatch then .arr [r.toJson] else r.toJson
  | rs => .arr (rs.map Response.toJson)

/-- The body that holds all answers. -/
def toJson (o : Replies) : Json := bodyOf o.isBatch (o.replies.map (·.response))

/-- The responses that are wanted. -/
def wanted (o : Replies) : List Response :=
  (o.replies.filter fun r => !r.isNotification).map (·.response)

/-- The body that holds the answers that are wanted, if there are any. -/
def wantedJson? (o : Replies) : Option Json :=
  match o.wanted with
  | [] => none
  | rs => some (bodyOf o.isBatch rs)

/-- The text of the body that holds all answers. -/
def body (o : Replies) : String := o.toJson.render

/-- The text of the body that holds the answers that are wanted, if there are any. -/
def replyBody? (o : Replies) : Option String := o.wantedJson?.map Json.render

end Replies

/-- What answers the bodies of messages: methods, the rules for all of them, and whether what goes
    on is measured. -/
structure Service (σ : Type) where
  table : MethodTable σ
  policy : Policy := {}
  isMetered : Bool := false

namespace Service

variable {σ : Type}

/-- The service in one line, for diagnosis. -/
def summary (s : Service σ) : String :=
  "Dispatcher \x7b registry: " ++ s.table.summary ++ ", config: " ++ s.policy.summary ++
    ", metrics: " ++ toString s.isMetered ++ " \x7d"

/-- The measurement that is made when a service begins to be metered. -/
def initialMeasurements (s : Service σ) : List Measurement :=
  if s.isMetered then [.methods s.table.size] else []

/-- Records a measurement if the service is metered. -/
def measure (s : Service σ) (m : Measurement) : Act σ Unit :=
  if s.isMetered then Act.measure m else Act.pure ()

/-- The error object that a fault is answered with. The data of what is not the caller's business
    may be held back. -/
def errorBody (s : Service σ) (f : Fault) : ErrorBody :=
  match f with
  | .parse _ => f.toErrorBody
  | f =>
    if f.isProtocol || !s.policy.redactInternal then f.toErrorBody
    else f.toErrorBody.withoutData

/-- What is noted about a fault that is answered. -/
def failureNotice (f : Fault) : Notice :=
  let code := f.toErrorBody.code
  match f with
  | .parse _ => .failed code f
  | f => if f.isProtocol then .failed code f else .failedInternally code f

/-- Answers with a fault. -/
def fail (s : Service σ) (version : Version) (f : Fault) (id : Id) : Act σ Response := do
  Act.note (failureNotice f)
  s.measure (.error f.toErrorBody.code)
  return Response.failure version (s.errorBody f) id

/-- Calls the handler of a method and checks what it returns. -/
def invoke (m : Method σ) (c : Call) (authenticated : Bool) : Act σ (Except Fault Json) := do
  let ctx : Context := ⟨c.method, c.id?, c.version, authenticated, m.parameterNames⟩
  let outcome ← Act.ofStep (m.handler ctx c.params)
  return do
    let v ← outcome.settle
    m.checkResult v
    Except.ok v

/-- Carries out a call: finds the method, sees whether the caller may call it and whether the
    parameters fit, and calls the handler. -/
def carryOut (s : Service σ) (c : Call) (authenticated : Bool) : Act σ (Except Fault Json) :=
  match s.table.find? c.method with
  | none =>
    Act.pure <|
      if s.policy.introspection && c.method = describeMethod then .ok s.table.describe
      else .error (.methodNotFound c.method)
  | some m =>
    if m.requiresAuthentication s.policy.requireAuthentication && !authenticated then
      Act.pure (.error (.unauthenticated c.method))
    else
      match m.checkParams c.params with
      | .error f => Act.pure (.error f)
      | .ok () => invoke m c authenticated

/-- The status under which an outcome is counted. -/
def status : Except Fault Json → String
  | .ok _ => "success"
  | .error _ => "error"

/-- Answers a call. -/
def answerCall (s : Service σ) (c : Call) (authenticated : Bool) : Act σ Response :=
  Act.inside (.request authenticated c.method c.responseId c.version) do
    let result ← s.carryOut c authenticated
    s.measure (.request c.method (status result) none)
    match result with
    | .ok v => return Response.success c.version v c.responseId
    | .error f => s.fail c.version f c.responseId

/-- Answers an envelope. -/
def answerEnvelope (s : Service σ) (v : Json) (authenticated : Bool) : Act σ Reply :=
  match Call.ofJson v with
  | .ok c => do
    let response ← s.answerCall c authenticated
    return ⟨response, c.isNotification⟩
  | .error r => do
    Act.note (.rejected r.fault r.id)
    let response ← s.fail r.version r.fault r.id
    return ⟨response, false⟩

/-- Answers envelopes in order. -/
def answerAll (s : Service σ) (authenticated : Bool) : List Json → Act σ (List Reply)
  | [] => Act.pure []
  | v :: rest => do
    let r ← s.answerEnvelope v authenticated
    let rs ← s.answerAll authenticated rest
    return r :: rs

/-- The version in which a body is answered that nothing can be made of. Only an empty batch shows
    that the caller knows version 2.0, the version that has batches. -/
def undecodableVersion : Undecodable → Version
  | .notJson => .v1
  | .emptyBatch => .v2

/-- Answers what a body holds. -/
def answerBody (s : Service σ) (authenticated : Bool) :
    Except Undecodable Body → Act σ Replies
  | .error u => do
    Act.note (.undecodable u.fault)
    let response ← s.fail (undecodableVersion u) u.fault .null
    return .single ⟨response, false⟩
  | .ok (.single v) => do
    let r ← s.answerEnvelope v authenticated
    return .single r
  | .ok (.batch items) => do
    Act.note (.batch items.length)
    s.measure (.batch items.length)
    let rs ← s.answerAll authenticated items
    return ⟨rs, true⟩

/-- Answers the body of a message. -/
def answer (s : Service σ) (body : ByteArray) (authenticated : Bool) : Act σ Replies :=
  Act.inside (.body authenticated body.size) (s.answerBody authenticated (Body.decode body))

/-- Answers the body of a message with the text of a body that holds all answers. -/
def answerText (s : Service σ) (body : ByteArray) (authenticated : Bool) : Act σ String := do
  let o ← s.answer body authenticated
  return o.body

end Service

end Switchboard
