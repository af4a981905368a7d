import Switchboard.Client.Sharing
import Switchboard.Socket.Serving

/-!
# Sharing a link

Any number of tasks, through any number of clients, may use one link at the same time. A task that
has a body to send waits for the link, which one task has at a time. A notification gives the link
back once it is written; a call keeps it until its reply is read, which is whatever the server has
written next. The other end of the link is a connection that is being served: what a task writes
arrives there as a text frame. The steps of the tasks and of the server may come in any order, so
all together are a system of actions.

Bodies are numbered in the order in which they are written. The numbers are not on the wire: a task
takes the next frame for the reply to its call, whatever is in it.
-/

namespace Switchboard

/-- A body that a task has written to a link. -/
structure Posted where
  task : Nat
  sent : Sent
deriving DecidableEq

/-- The frame in which a body travels. -/
def Posted.frame (b : Posted) : Frame := .text b.sent.body

/-- How far a task has come with its errand on a link: it has none; its body is ready and it waits
    for the link; it has the link and is about to write; or it has written a body with a number and
    waits for the reply. -/
inductive LinkProgress where
  | idle
  | waiting (s : Sent)
  | writing (s : Sent)
  | reading (id : Id) (number : Nat)
deriving DecidableEq

/-- A reply that has been read for a call of a task; `asked` is the number of the body of the
    call. -/
structure Delivery where
  task : Nat
  id : Id
  asked : Nat
  reply : Frame
deriving DecidableEq

/-- Tasks that share a link to a server: the clients and the tasks, the task that has the link, the
    bodies that have been written, whose places are their numbers, the connection at the other end,
    and the replies that have been read, in order. -/
structure SharedLink (σ : Type) where
  clients : List Client
  tasks : List LinkProgress
  owner? : Option Nat := none
  written : List Posted := []
  server : Serving σ
  delivered : List Delivery := []

namespace SharedLink

variable {σ : Type}

/-- What can happen on a shared link: a task begins an errand through a client, takes the link,
    writes its body or reads the reply to its call, or something happens to the connection at the
    other end. -/
inductive Action where
  | begin (i p : Nat) (e : Errand)
  | take (i : Nat)
  | write (i : Nat)
  | serve (a : Serving.Action)
  | read (i : Nat)
deriving DecidableEq

/-- What the server has written and no task has read. -/
def unread (s : SharedLink σ) : List Frame := s.server.written.drop s.delivered.length

/-- Puts a task at another point of its errand. -/
def setTask (s : SharedLink σ) (i : Nat) (p : LinkProgress) : SharedLink σ :=
  { s with tasks := s.tasks.set i p }

/-- Begins an errand; one that the client refuses ends at once. -/
def begin (s : SharedLink σ) (i p : Nat) (client : Client) (e : Errand) : SharedLink σ :=
  match client.prepare e with
  | .error _ => s
  | .ok (b, next) => { s.setTask i (.waiting b) with clients := s.clients.set p next }

/-- Puts the body of a task on the link. -/
def post (s : SharedLink σ) (b : Posted) : SharedLink σ :=
  { s with written := s.written ++ [b], server := s.server.arrive b.frame }

/-- Writes the body of the task that has the link. -/
def write (s : SharedLink σ) (i : Nat) (b : Sent) : SharedLink σ :=
  match b with
  | .call id _ => (s.post ⟨i, b⟩).setTask i (.reading id s.written.length)
  | .notification _ => { (s.post ⟨i, b⟩).setTask i .idle with owner? := none }

/-- The shared link after an action, if the action is possible. -/
def step? (service : Service σ) (verdict : Bool) (s : SharedLink σ) :
    Action → Option (SharedLink σ)
  | .begin i p e =>
    match s.tasks[i]?, s.clients[p]? with
    | some .idle, some client => some (s.begin i p client e)
    | _, _ => none
  | .take i =>
    match s.owner?, s.tasks[i]? with
    | none, some (.waiting b) =>
      some { s.setTask i (.writing b) with owner? := some i }
    | _, _ => none
  | .write i =>
    match s.tasks[i]? with
    | some (.writing b) => some (s.write i b)
    | _ => none
  | .serve a =>
    (Serving.step? service verdict s.server a).map fun server => { s with server := server }
  | .read i =>
    match s.tasks[i]?, s.unread with
    | some (.reading id number), reply :: _ =>
      some { s.setTask i .idle with
        owner? := none
        delivered := s.delivered ++ [⟨i, id, number, reply⟩] }
    | _, _ => none

/-- The shared link after a list of actions, if each is possible in its turn. -/
def run? (service : Service σ) (verdict : Bool) :
    List Action → SharedLink σ → Option (SharedLink σ)
  | [], s => some s
  | a :: rest, s => (step? service verdict s a).bind (run? service verdict rest)

/-- A number of idle tasks that share a fresh link through clients of some versions. -/
def start (versions : List Version) (n : Nat) (state : σ) : SharedLink σ where
  clients := versions.map fun v => Client.mk v 1
  tasks := List.replicate n .idle
  server := Serving.start state []

/-- Whether some task is in the middle of a call on the link. -/
def isCalling (s : SharedLink σ) : Bool := s.tasks.any fun
  | .reading .. => true
  | _ => false

end SharedLink

end Switchboard
