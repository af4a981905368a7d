import Switchboard.Json.Basic
import Switchboard.Number.Notation

/-!
# Measurements

What a server counts. Each measurement is recorded on one or two instruments, under labels that
tell apart what is counted there. A recording keeps every amount in order; counters, histograms
and gauges are ways to sum up the amounts of one series.
-/

namespace Switchboard

/-- Something that is measured while a server runs: a request has been carried out, with its
    duration where a clock runs; an error object has been sent; a batch has come in; a table with
    some methods is being served; or some connections are open. -/
inductive Measurement where
  | request (method status : String) (seconds? : Option Binary64)
  | error (code : Int)
  | batch (size : Nat)
  | methods (count : Nat)
  | connections (count : Int)
deriving DecidableEq, Repr

/-- An instrument that amounts are recorded on. Requests and their durations are told apart by
    method and outcome, and error objects by code. -/
inductive Instrument where
  | requests
  | duration
  | errors
  | batchSize
  | methods
  | connections
deriving DecidableEq, Repr

/-- How the amounts recorded on an instrument are summed up: their sum; their number, sum, least
    and greatest; or the last one. -/
inductive Aggregation where
  | counter
  | histogram
  | gauge
deriving DecidableEq, Repr

namespace Instrument

/-- Every instrument, in the order of their names. -/
def all : List Instrument := [.batchSize, .connections, .errors, .methods, .duration, .requests]

/-- The name of the instrument. -/
def name : Instrument → String
  | .requests => "jreg.server.requests.total"
  | .duration => "jreg.server.request.duration"
  | .errors => "jreg.server.errors.total"
  | .batchSize => "jreg.server.batch.size"
  | .methods => "jreg.server.methods.registered"
  | .connections => "jreg.server.connections.active"

/-- What the instrument is for. -/
def description : Instrument → String
  | .requests => "Total number of requests dispatched"
  | .duration => "Method execution duration in seconds"
  | .errors => "Total number of error responses"
  | .batchSize => "Number of requests in batch bodies"
  | .methods => "Number of registered methods"
  | .connections => "Number of open WebSocket connections"

/-- How the instrument sums up. -/
def aggregation : Instrument → Aggregation
  | .requests | .errors => .counter
  | .duration | .batchSize => .histogram
  | .methods | .connections => .gauge

end Instrument

/-- One amount recorded on an instrument, under labels that are `key=value` pairs sorted by key. An
    amount that was not measured counts all the same. -/
structure Sample where
  instrument : Instrument
  labels : String
  amount? : Option Number
deriving DecidableEq, Repr

/-- The amounts that a measurement is recorded as. -/
def Measurement.samples : Measurement → List Sample
  | .request method status seconds? =>
    let labels := "method=" ++ method ++ ",status=" ++ status
    [⟨.requests, labels, some (.int 1)⟩, ⟨.duration, labels, seconds?.map .float⟩]
  | .error code => [⟨.errors, "code=" ++ String.ofList (intDigits code), some (.int 1)⟩]
  | .batch size => [⟨.batchSize, "", some (.int size)⟩]
  | .methods count => [⟨.methods, "", some (.int count)⟩]
  | .connections count => [⟨.connections, "", some (.int count)⟩]

/-- The sum of two numbers; integers add up to an integer. -/
def Number.add : Number → Number → Number
  | .int a, .int b => .int (a + b)
  | a, b =>
    match a.toBinary64?, b.toBinary64? with
    | some x, some y => ((x.add? y).map .float).getD a
    | _, _ => a

/-- Whether a number is at most another. -/
def Number.le : Number → Number → Bool
  | .int a, .int b => a ≤ b
  | a, b =>
    match a.toBinary64?, b.toBinary64? with
    | some x, some y => x.le y
    | _, _ => true

/-- The amounts of one series, in the order in which they were recorded. -/
abbrev Amounts := List (Option Number)

namespace Amounts

/-- How many amounts there are. -/
def count (l : Amounts) : Nat := l.length

/-- The measured amounts. -/
def measured (l : Amounts) : List Number := l.filterMap id

/-- The sum of the measured amounts. -/
def total (l : Amounts) : Number :=
  match l.measured with
  | [] => .int 0
  | n :: rest => rest.foldl Number.add n

/-- The least measured amount. -/
def least? (l : Amounts) : Option Number :=
  match l.measured with
  | [] => none
  | n :: rest => some (rest.foldl (fun m k => if m.le k then m else k) n)

/-- The greatest measured amount. -/
def greatest? (l : Amounts) : Option Number :=
  match l.measured with
  | [] => none
  | n :: rest => some (rest.foldl (fun m k => if k.le m then m else k) n)

/-- The last measured amount. -/
def last? (l : Amounts) : Option Number := l.measured.getLast?

/-- The amounts of one series summed up in one value. -/
def summary (l : Amounts) : Aggregation → Json
  | .counter => .num l.total
  | .gauge => Json.ofOption (l.last?.map .num)
  | .histogram =>
    .arr (.ofInt l.count :: (match l.least?, l.greatest? with
      | some least, some greatest => [.num l.total, .num least, .num greatest]
      | _, _ => []))

end Amounts

/-- Everything that has been recorded, as samples in order. -/
abbrev Recording := List Sample

namespace Recording

/-- The samples of measurements. -/
def ofMeasurements (l : List Measurement) : Recording := l.flatMap Measurement.samples

/-- The samples recorded on an instrument. -/
def on (r : Recording) (i : Instrument) : Recording := r.filter fun s => s.instrument = i

/-- The amounts recorded under labels. -/
def amounts (r : Recording) (labels : String) : Amounts :=
  (r.filter fun s => s.labels = labels).map (·.amount?)

/-- The instruments that something has been recorded on. -/
def instruments (r : Recording) : List Instrument :=
  Instrument.all.filter fun i => !(r.on i).isEmpty

/-- What has been recorded on each instrument under each of its labels, summed up. -/
def totals (r : Recording) : Json :=
  .object (r.instruments.map fun i =>
    let here := r.on i
    let series := here.map fun s => (s.labels, (here.amounts s.labels).summary i.aggregation)
    (i.name, .object series))

end Recording

end Switchboard
