import Switchboard.Http.Target

/-!
# Settings for watching a service

Under which name a service is watched, where its traces and measurements are sent, and which notices
are written. What nothing else is asked for is taken from the environment, and what that does not
say has a fixed value.
-/

namespace Switchboard

/-- The variables of the environment that settings are taken from, where they are set: where traces
    and measurements are sent, and which notices are written. -/
structure Environment where
  endpoint? : Option String := none
  filter? : Option String := none
deriving DecidableEq, Repr

/-- How a service is watched: where traces and measurements are sent and which of them are, which
    notices are written if the environment does not say so, and how often measurements are sent, in
    milliseconds. -/
structure WatchSettings where
  serviceName : String
  serviceVersion : String
  endpoint : String
  traces : Bool
  metrics : Bool
  logLevel : String
  metricsInterval : Nat
deriving DecidableEq, Repr

/-- Where an environment says that traces and measurements are sent. -/
def Environment.endpoint (env : Environment) : String :=
  env.endpoint?.getD "http://localhost:4317"

namespace WatchSettings

/-- The settings in an environment if nothing else is asked for. -/
def inEnvironment (env : Environment) : WatchSettings where
  serviceName := "jreg"
  serviceVersion := "0.1.0"
  endpoint := env.endpoint
  traces := false
  metrics := false
  logLevel := env.filter?.getD "info"
  metricsInterval := 30000

/-- The settings for a service of a name. -/
def forService (env : Environment) (name : String) : WatchSettings :=
  { inEnvironment env with serviceName := name }

/-- Where traces and measurements are sent: where the settings say, and if they leave it empty where
    the environment says. -/
def destination (o : WatchSettings) (env : Environment) : String :=
  if o.endpoint.isEmpty then env.endpoint else o.endpoint

/-- Whether everything that the settings ask for can be sent: nothing is asked for, or it is sent to
    a well-formed target. -/
def isSendable (o : WatchSettings) (env : Environment) : Bool :=
  !(o.traces || o.metrics) || Target.isWellFormed (o.destination env)

end WatchSettings

end Switchboard
