import Switchboard.Envelope.Version
import Switchboard.Envelope.Id
import Switchboard.Fault
import Switchboard.Journal.Measurement

/-!
# The journal of a computation

Apart from its result a computation leaves a journal: notices for the people who run the service,
and measurements. Notices are made inside spans, which say what was going on. Nothing in the
library reads the journal, so it can be looked at or thrown away without changing a result.

`Act σ α` is a computation with a result in `α` that reads and changes an application state in
`σ` and keeps a journal.
-/

namespace Switchboard

/-- How much a notice matters, the least first. -/
inductive Level where
  | trace
  | debug
  | info
  | warn
  | error
deriving DecidableEq, Repr

/-- The position of a level in the order of importance. -/
def Level.rank : Level → Nat
  | .trace => 0
  | .debug => 1
  | .info => 2
  | .warn => 3
  | .error => 4

/-- The name of a level. -/
def Level.name : Level → String
  | .trace => "TRACE"
  | .debug => "DEBUG"
  | .info => "INFO"
  | .warn => "WARN"
  | .error => "ERROR"

/-- Something that people who run a service are told. A request that failed is told apart by
    whether its caller is told of it (`failed`) or not (`failedInternally`). -/
inductive Notice where
  | initialized (service endpoint : String) (traces metrics : Bool)
  | shutdown
  | registering (method signature : String)
  | replaced (method : String)
  | undecodable (fault : Fault)
  | batch (size : Nat)
  | rejected (fault : Fault) (id : Id)
  | failed (code : Int) (fault : Fault)
  | failedInternally (code : Int) (fault : Fault)
  | listening (address : String) (methods : Nat)
  | idMismatch (expected got : Id)
  | callFailed (e : ErrorBody)
deriving DecidableEq

namespace Notice

/-- The part of the service that a notice comes from. -/
def source : Notice → String
  | .initialized .. | .shutdown => "jreg_core::observability"
  | .registering .. | .replaced _ => "jreg_server::registry"
  | .undecodable _ | .batch _ | .rejected .. | .failed .. | .failedInternally .. =>
    "jreg_server::dispatcher"
  | .listening .. => "jreg_server::builder"
  | .idMismatch .. | .callFailed _ => "jreg_client::proxy"

/-- How much a notice matters. -/
def level : Notice → Level
  | .initialized .. | .shutdown | .listening .. => .info
  | .registering .. | .replaced _ | .undecodable _ | .batch _ | .rejected .. | .failed ..
  | .callFailed _ => .debug
  | .failedInternally .. => .error
  | .idMismatch .. => .warn

/-- What a notice says. -/
def message : Notice → String
  | .initialized .. => "Observability initialized"
  | .shutdown => "Observability shutdown"
  | .registering .. => "Registering method"
  | .replaced _ => "Replaced previously registered method"
  | .undecodable _ => "Rejected undecodable body"
  | .batch _ => "Processing batch"
  | .rejected .. => "Rejected request envelope"
  | .failed .. => "Request failed"
  | .failedInternally .. => "Request failed with internal error"
  | .listening .. => "Server listening"
  | .idMismatch .. => "Response id mismatch"
  | .callFailed e => e.message

/-- The particulars of a notice. -/
def fields : Notice → Members
  | .initialized service endpoint traces metrics =>
    [("service_name", .str service), ("otlp_endpoint", .str endpoint), ("traces", .bool traces),
      ("metrics", .bool metrics)]
  | .shutdown => []
  | .registering method signature => [("method", .str method), ("signature", .str signature)]
  | .replaced method => [("method", .str method)]
  | .undecodable fault => [("error", .str fault.message)]
  | .batch size => [("batch_size", .ofInt size)]
  | .rejected fault id => [("error", .str fault.message), ("id", .str id.display)]
  | .failed code fault => [("code", .ofInt code), ("error", .str fault.message)]
  | .failedInternally code fault => [("code", .ofInt code), ("error", .str fault.message)]
  | .listening address methods => [("addr", .str address), ("methods", .ofInt methods)]
  | .idMismatch expected got => [("expected", .str expected.display), ("got", .str got.display)]
  | .callFailed e => [("code", .ofInt e.code)]

end Notice

/-- An activity during which notices are made: a body of some bytes is answered, a request is
    carried out, or a client calls or notifies a method. -/
inductive Span where
  | body (authenticated : Bool) (length : Nat)
  | request (authenticated : Bool) (method : String) (id : Id) (version : Version)
  | call (method : String) (version : Version)
  | notify (method : String) (version : Version)
deriving DecidableEq

namespace Span

/-- The part of the service that a span belongs to. -/
def source : Span → String
  | .body .. | .request .. => "jreg_server::dispatcher"
  | .call .. | .notify .. => "jreg_client::proxy"

/-- A span with its particulars, as it is shown. -/
def toJson : Span → Json
  | .body authenticated length =>
    .object [("name", .str "dispatch_outcome"), ("authenticated", .bool authenticated),
      ("body_len", .ofInt length)]
  | .request authenticated method id version =>
    .object [("name", .str "handle_request"), ("authenticated", .bool authenticated),
      ("method", .str method), ("id", .str id.display), ("version", .str version.text)]
  | .call method version =>
    .object [("name", .str "call"), ("method", .str method), ("version", .str version.text)]
  | .notify method version =>
    .object [("name", .str "notify"), ("method", .str method), ("version", .str version.text)]

end Span

/-- An entry of the journal: a notice with the spans that it was made in, the outermost first, or a
    measurement. -/
inductive Event where
  | notice (n : Notice) (spans : List Span)
  | measurement (m : Measurement)
deriving DecidableEq

/-- What a computation left behind, in order. -/
abbrev Journal := List Event

namespace Journal

/-- The journal of something that went on inside a span. -/
def inside (span : Span) (j : Journal) : Journal :=
  j.map fun
    | .notice n spans => .notice n (span :: spans)
    | .measurement m => .measurement m

/-- The measurements of a journal. -/
def measurements (j : Journal) : List Measurement :=
  j.filterMap fun
    | .measurement m => some m
    | .notice .. => none

end Journal

/-- A computation over an application state that keeps a journal. -/
def Act (σ α : Type) : Type := σ → α × σ × Journal

namespace Act

variable {σ α β : Type}

/-- The computation that only has a result. -/
def pure (a : α) : Act σ α := fun s => (a, s, [])

/-- One computation after another; the journals follow each other. -/
def bind (x : Act σ α) (f : α → Act σ β) : Act σ β := fun s =>
  let (a, s, j) := x s
  let (b, s, k) := f a s
  (b, s, j ++ k)

instance : Monad (Act σ) where
  pure := Act.pure
  bind := Act.bind

/-- Makes an entry in the journal. -/
def write (e : Event) : Act σ Unit := fun s => ((), s, [e])

/-- Makes a notice. -/
def note (n : Notice) : Act σ Unit := write (.notice n [])

/-- Records a measurement. -/
def measure (m : Measurement) : Act σ Unit := write (.measurement m)

/-- Puts what a computation notes inside a span. -/
def inside (span : Span) (x : Act σ α) : Act σ α := fun s =>
  let (a, s, j) := x s
  (a, s, j.inside span)

/-- A step of the application: it changes the state and leaves no journal. -/
def ofStep (f : σ → α × σ) : Act σ α := fun s =>
  let (a, s) := f s
  (a, s, [])

end Act

end Switchboard
