import Switchboard.Watch.Filter
import Switchboard.Watch.Settings

/-!
# Watching a service

One watcher can be installed, once. Notices made before that are not written, and afterwards its
filter decides. Beginning to watch can fail because of the settings or because there is a watcher.
-/

namespace Switchboard

/-- Whether a service is being watched, and what has been written so far: what the environment
    says, the filter of the watcher once it is installed, and the lines. -/
structure Watch where
  environment : Environment := {}
  filter? : Option Filter := none
  lines : List Line := []
deriving DecidableEq

/-- Why watching could not begin: the place that traces or measurements are to be sent to is none,
    the text of the filter stands for none, or there is a watcher. -/
inductive WatchFault where
  | invalidEndpoint
  | invalidFilter
  | alreadyInstalled
deriving DecidableEq, Repr

namespace Watch

/-- Takes in what was noted. -/
def record (w : Watch) (j : Journal) : Watch :=
  match w.filter? with
  | none => w
  | some f => { w with lines := w.lines ++ j.lines f }

/-- The filter under which watching begins: the environment's if it has one, else that of the
    settings. -/
def chosenFilter? (w : Watch) (o : WatchSettings) : Option Filter :=
  match w.environment.filter?.bind Filter.ofText? with
  | some f => some f
  | none => Filter.ofText? o.logLevel

/-- Begins to watch under settings. What the settings ask for is built first, then the filter, and
    last of all the watcher is installed. -/
def begin (w : Watch) (o : WatchSettings) : Except WatchFault Watch :=
  if !o.isSendable w.environment then .error .invalidEndpoint
  else
    match w.chosenFilter? o with
    | none => .error .invalidFilter
    | some f =>
      if w.filter?.isSome then .error .alreadyInstalled
      else
        let w := { w with filter? := some f }
        .ok (w.record [.notice (.initialized o.serviceName o.endpoint o.traces o.metrics) []])

/-- Says that the service is about to end. -/
def finish (w : Watch) : Watch := w.record [.notice .shutdown []]

end Watch

end Switchboard
