import Switchboard.Envelope.Request
import Switchboard.Journal.Basic

/-!
# Handlers

A handler carries out the calls of one method. It is given what is known about the call and the
parameters, and it may read and change the state of the application. It ends with a value, with a
fault, or by panicking, with or without a text to say why.
-/

namespace Switchboard

/-- What a handler is told about a call: the name by which the method was called, the id if one was
    sent, the version of the protocol, whether the caller is known, and the names of the method's
    parameters as far as they are known. -/
structure Context where
  method : String
  id? : Option Id
  version : Version
  authenticated : Bool
  parameterNames : List String
deriving DecidableEq

/-- Whether no answer is wanted: without an id, and in version 1.0 also with the null id. -/
def Context.isNotification (c : Context) : Bool :=
  match c.id? with
  | none => true
  | some id => c.version = .v1 && id.isNull

/-- How a handler ends: with a value, with a fault, or by panicking, with the text of the panic if
    it has one. -/
inductive Outcome where
  | value (v : Json)
  | fault (f : Fault)
  | panic (text? : Option String)
deriving DecidableEq

namespace Outcome

/-- The detail of the internal error that a panic ends in. -/
def panicDetail : Option String → String
  | some text => "handler panicked: " ++ text
  | none => "handler panicked"

/-- What an outcome means to the caller. A fault about the call is passed on; what else goes wrong
    is an internal error. -/
def settle : Outcome → Except Fault Json
  | .value v => .ok v
  | .fault f => .error (if f.isProtocol then f else .internal f.message)
  | .panic text? => .error (.internal (panicDetail text?))

/-- The outcome of a computation that may fail. -/
def ofExcept : Except Fault Json → Outcome
  | .ok v => .value v
  | .error f => .fault f

end Outcome

/-- What carries out the calls of a method, over an application state. -/
abbrev Handler (σ : Type) := Context → Params → σ → Outcome × σ

/-- The handler that keeps the state as it is. -/
def Handler.stateless {σ : Type} (f : Context → Params → Outcome) : Handler σ :=
  fun ctx params s => (f ctx params, s)

end Switchboard
