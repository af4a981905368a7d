import Switchboard.Service

/-!
# Carriers

A carrier takes a body to a server and brings back the body that answers it. A body that wants no
answer goes another way, which by default is the same one with the answer dropped. A carrier has a
state of its own: what it has sent, what it will be answered, or the application that it
leads to.
-/

namespace Switchboard

/-- A way for bodies to reach a server: `send` waits for the answer, and `notify` wants none. -/
structure Carrier (σ : Type) where
  send : ByteArray → Act σ (Except Fault ByteArray)
  notify : ByteArray → Act σ (Except Fault Unit)

namespace Carrier

variable {σ : Type}

/-- The carrier that waits for an answer also where none is wanted, and drops it. -/
def ofSend (send : ByteArray → Act σ (Except Fault ByteArray)) : Carrier σ where
  send := send
  notify body := do
    let reply ← send body
    return reply.map fun _ => ()

/-- The carrier to a service in the same place. -/
def direct (service : Service σ) (authenticated : Bool) : Carrier σ :=
  ofSend fun body => do
    let text ← service.answerText body authenticated
    return .ok text.toUTF8

/-- The answers that are still to be given, one for each body that is sent. -/
abbrev Script := List (Except Fault ByteArray)

/-- The next answer of a script; a script that has ended lets the carrier fail. -/
def Script.next : Script → Except Fault ByteArray × Script
  | [] => (.error (.transport "no reply scripted"), [])
  | reply :: rest => (reply, rest)

/-- The carrier that answers by a script. -/
def scripted : Carrier Script := ofSend fun _ => Act.ofStep Script.next

/-- Lets a computation over one state run where there is a record of bodies beside it, and adds a
    body to the record. -/
def recording {α : Type} (body : ByteArray) (x : Act σ α) : Act (σ × List ByteArray) α :=
  fun (s, sent) =>
    let (a, s, j) := x s
    (a, (s, sent ++ [body]), j)

/-- A carrier together with the bodies that have been sent by it. -/
def recorded (t : Carrier σ) : Carrier (σ × List ByteArray) where
  send body := recording body (t.send body)
  notify body := recording body (t.notify body)

end Carrier

end Switchboard
