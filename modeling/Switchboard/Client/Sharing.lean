import Switchboard.Client.Basic
import Switchboard.Text.Utf8

/-!
# Sharing a client

Any number of tasks may use one client at the same time. What a task does falls into steps: it takes
the id of its call, if the parameters are allowed, it sends the body, and it gets what the carrier
brings back, which may be anything. The steps of different tasks may come in any order, so the
tasks together are a system of actions on the client.
-/

namespace Switchboard

/-- What a task wants of a client. -/
inductive Errand where
  | call (method : String) (params : Params)
  | notify (method : String) (params : Params)
deriving DecidableEq

/-- The parameters of an errand. -/
def Errand.params : Errand → Params
  | .call _ params => params
  | .notify _ params => params

/-- A body that has been handed to a carrier. -/
inductive Sent where
  | call (id : Id) (body : ByteArray)
  | notification (body : ByteArray)
deriving DecidableEq

namespace Sent

/-- The id of a call; a notification has none. -/
def id? : Sent → Option Id
  | .call id _ => some id
  | .notification _ => none

/-- The body. -/
def body : Sent → ByteArray
  | .call _ body => body
  | .notification body => body

end Sent

namespace Client

/-- Prepares an errand: the body for the carrier, and the client after the errand has taken its
    id. -/
def prepare (c : Client) (e : Errand) : Except Fault (Sent × Client) := do
  check c.version e.params
  match e with
  | .call method params =>
    let (id, next) := c.takeId
    return (.call id (callBody c.version method params id), next)
  | .notify method params => return (.notification (notificationBody c.version method params), c)

end Client

/-- How far a task has come with its errand: it has none, its body is ready, or its body has been
    sent. -/
inductive Progress where
  | idle
  | prepared (s : Sent)
  | sent (s : Sent)
deriving DecidableEq

/-- The outcome of an errand of a task. The result of a notification is `null`. -/
structure Finished where
  task : Nat
  result : Except Fault Json

/-- Tasks that share a client, with the ids that have been taken, what has been sent and the
    errands that have come to an end, each in order. -/
structure Sharing where
  client : Client
  tasks : List Progress
  taken : List Id := []
  sent : List Sent := []
  finished : List Finished := []

namespace Sharing

/-- What can happen among the tasks: a task begins an errand, it hands its body to the carrier, or
    the carrier brings something back for it. -/
inductive Action where
  | begin (i : Nat) (e : Errand)
  | send (i : Nat)
  | settle (i : Nat) (reply : Except Fault ByteArray)

/-- What the reply to a body means to its task. -/
def meaning : Sent → Except Fault ByteArray → Except Fault Json
  | _, .error f => .error f
  | .call id _, .ok reply => (Client.outcome id reply ()).1
  | .notification _, .ok _ => .ok .null

/-- Puts a task at another point of its errand. -/
def setTask (s : Sharing) (i : Nat) (p : Progress) : Sharing :=
  { s with tasks := s.tasks.set i p }

/-- Records the outcome of the errand of a task, which is idle after that. -/
def finish (s : Sharing) (i : Nat) (r : Except Fault Json) : Sharing :=
  { s.setTask i .idle with finished := s.finished ++ [⟨i, r⟩] }

/-- Begins an errand of an idle task. -/
def begin (s : Sharing) (i : Nat) (e : Errand) : Sharing :=
  match s.client.prepare e with
  | .error f => s.finish i (.error f)
  | .ok (b, p) =>
    { s.setTask i (.prepared b) with client := p, taken := s.taken ++ b.id?.toList }

/-- The tasks after an action, if the action is possible. -/
def step? (s : Sharing) : Action → Option Sharing
  | .begin i e =>
    match s.tasks[i]? with
    | some .idle => some (s.begin i e)
    | _ => none
  | .send i =>
    match s.tasks[i]? with
    | some (.prepared b) => some { s.setTask i (.sent b) with sent := s.sent ++ [b] }
    | _ => none
  | .settle i reply =>
    match s.tasks[i]? with
    | some (.sent b) => some (s.finish i (meaning b reply))
    | _ => none

/-- The tasks after a list of actions, if each is possible in its turn. -/
def run? : List Action → Sharing → Option Sharing
  | [], s => some s
  | a :: rest, s => (s.step? a).bind (run? rest)

/-- A number of idle tasks that share a fresh client. -/
def start (version : Version) (n : Nat) : Sharing where
  client := ⟨version, 1⟩
  tasks := List.replicate n .idle

end Sharing

end Switchboard
