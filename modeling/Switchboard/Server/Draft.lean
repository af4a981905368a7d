import Switchboard.Service
import Switchboard.Http.Bearer
import Switchboard.Watch.Basic
import Switchboard.Server.Network

/-!
# Building a server

A server is put together in steps, of which the last of a sort counts, except that methods and
policy are also added to bit by bit. The first registration that fails is remembered, and after it
no more are carried out. The build reports that failure before anything else, then a missing
address; then the address is bound, and watching begins if it was asked for.
-/

namespace Switchboard

/-- A server that listens at an address and answers bodies with a service. The authenticator
    decides whether a caller is known; without it none is. -/
structure Server (σ : Type) where
  address : SocketAddress
  service : Service σ
  authenticator? : Option Authenticator

/-- The verdict about a caller from the headers of the handshake. -/
def Server.verdict {σ : Type} (s : Server σ) (headers : Headers) : Bool :=
  match s.authenticator? with
  | some authenticator => authenticator headers
  | none => false

/-- A server that is being put together. It keeps the first registration that failed; settings that
    were not made are missing, and the name of the service takes the place of the one in the
    settings for watching. -/
structure ServerDraft (σ : Type) where
  address? : Option SocketAddress := none
  table : MethodTable σ := ∅
  fault? : Option Fault := none
  policy : Policy := {}
  authenticator? : Option Authenticator := none
  watching? : Option WatchSettings := none
  serviceName? : Option String := none

namespace ServerDraft

variable {σ : Type}

/-- A step in putting a server together. `method` adds a method and `table` replaces all of them;
    `policy` replaces all rules, and the three steps after it each turn one on; the others set what
    their name says. -/
inductive Step (σ : Type) where
  | bind (a : SocketAddress)
  | method (r : Registration σ)
  | table (r : MethodTable σ)
  | policy (p : Policy)
  | requireAuthentication
  | redactInternal
  | introspection
  | authenticator (a : Authenticator)
  | watching (o : WatchSettings)
  | serviceName (name : String)

/-- Registers a method, unless a registration has failed; also says what is noted. -/
def method (d : ServerDraft σ) (r : Registration σ) : ServerDraft σ × Journal :=
  match d.fault? with
  | some _ => (d, [])
  | none =>
    match d.table.register r.text r.handler r.terms with
    | .ok (table, j) => ({ d with table := table }, j)
    | .error f => ({ d with fault? := some f }, [])

/-- Changes the rules for all methods. -/
def amend (d : ServerDraft σ) (f : Policy → Policy) : ServerDraft σ :=
  { d with policy := f d.policy }

/-- Carries out a step; also says what is noted. -/
def step (d : ServerDraft σ) : Step σ → ServerDraft σ × Journal
  | .bind a => ({ d with address? := some a }, [])
  | .method r => d.method r
  | .table r => ({ d with table := r }, [])
  | .policy p => ({ d with policy := p }, [])
  | .requireAuthentication => (d.amend fun p => { p with requireAuthentication := true }, [])
  | .redactInternal => (d.amend fun p => { p with redactInternal := true }, [])
  | .introspection => (d.amend fun p => { p with introspection := true }, [])
  | .authenticator a => ({ d with authenticator? := some a }, [])
  | .watching o => ({ d with watching? := some o }, [])
  | .serviceName name => ({ d with serviceName? := some name }, [])

/-- Carries out steps in order, starting from nothing. -/
def ofSteps (l : List (Step σ)) : ServerDraft σ := l.foldl (fun d s => (d.step s).1) {}

/-- The address that a text stands for. -/
def addressOfText (text : String) : Except Fault SocketAddress :=
  match SocketAddress.parse? text with
  | some a => .ok a
  | none => .error (.usage "Invalid address: invalid socket address syntax")

/-- The settings under which the service is watched. -/
def settings? (d : ServerDraft σ) : Option WatchSettings :=
  d.watching?.map fun o => { o with serviceName := d.serviceName?.getD o.serviceName }

/-- The service of the server; it is metered if the service is watched. -/
def service (d : ServerDraft σ) : Service σ :=
  ⟨d.table, d.policy, d.watching?.isSome⟩

/-- Begins to watch the service if that was asked for. -/
def watch (d : ServerDraft σ) (w : Watch) : Except Fault Watch :=
  match d.settings? with
  | none => .ok w
  | some o =>
    match w.begin o with
    | .ok w => .ok w
    | .error _ => .error (.internal "Failed to initialize observability")

/-- The address that the draft asks for, unless a registration failed or there is none. -/
def requestedAddress (d : ServerDraft σ) : Except Fault SocketAddress :=
  match d.fault?, d.address? with
  | some f, _ => .error f
  | none, none => .error (.usage "No bind address specified")
  | none, some a => .ok a

/-- What is noted when a server begins to listen where it was asked to. -/
def listening (d : ServerDraft σ) (asked : SocketAddress) : Journal :=
  [.notice (.listening asked.render d.table.size) []]

/-- Builds the server in a network and under a watch. -/
def build (d : ServerDraft σ) (n : Network) (w : Watch) :
    Except Fault (Server σ × Network × Watch) := do
  let asked ← d.requestedAddress
  let (address, n) ← n.bind asked
  let w ← d.watch w
  .ok (⟨address, d.service, d.authenticator?⟩, n, w.record (d.listening asked))

end ServerDraft

end Switchboard
