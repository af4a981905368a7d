import Switchboard.Handler.Basic
import Switchboard.Signature.Parser
import Switchboard.Text.Quoted

/-!
# Methods

A method is a handler together with its signature and three flags: whether it is for known callers
only, whether it is safe for everyone, and whether its parameters and results are checked against
the signature.
-/

namespace Switchboard

/-- What is asked for when a method is registered: that only known callers may call it; that
    everyone may, whatever else is asked for; that parameters and results are checked against the
    signature; and names for the parameters that the signature declares by their type alone, and
    for all parameters if it declares none. -/
structure MethodTerms where
  authenticated : Bool := false
  safe : Bool := false
  validate : Bool := false
  parameterNames : List String := []
deriving DecidableEq, Repr

/-- The terms in one line, for diagnosis. -/
def MethodTerms.summary (o : MethodTerms) : String :=
  "MethodOptions \x7b authenticated: " ++ toString o.authenticated ++ ", safe: " ++
    toString o.safe ++ ", validate: " ++ toString o.validate ++ ", param_names: " ++
    Text.quotedList o.parameterNames ++ " \x7d"

/-- A parameter as a listing shows it. -/
def Parameter.toJson (p : Parameter) : Json :=
  .object [("name", .str p.name), ("kind", .str p.kind.name)]

/-- A method that can be called: what it declares about itself, what carries out its calls, the
    terms on which it was registered, and the names of its parameters as far as they are known. -/
structure Method (σ : Type) where
  signature : Signature
  handler : Handler σ
  authenticated : Bool
  safe : Bool
  validate : Bool
  parameterNames : List String

namespace Method

variable {σ : Type}

/-- The method with a signature, a handler and terms. -/
def make (signature : Signature) (handler : Handler σ) (terms : MethodTerms) : Method σ where
  signature := signature
  handler := handler
  authenticated := terms.authenticated
  safe := terms.safe
  validate := terms.validate
  parameterNames :=
    if signature.isWildcard then terms.parameterNames else signature.parameterNames

/-- The name by which the method is called. -/
def name (m : Method σ) : String := m.signature.name

/-- Whether only known callers may call the method, given whether all methods ask for that. -/
def requiresAuthentication (m : Method σ) (everywhere : Bool) : Bool :=
  !m.safe && (m.authenticated || everywhere)

/-- The method as a listing shows it. A method that takes any parameters has `null` for a list of
    them. -/
def describe (m : Method σ) : Json :=
  .object [
    ("name", .str m.name),
    ("signature", .str m.signature.render),
    ("params",
      Json.ofOption (m.signature.parameters?.map fun ps => .arr (ps.map Parameter.toJson))),
    ("returns", .str m.signature.returns.name),
    ("authenticated", .bool m.authenticated),
    ("safe", .bool m.safe),
    ("validate", .bool m.validate)]

/-- The method in one line, for diagnosis. -/
def summary (m : Method σ) : String :=
  "RegisteredMethod \x7b signature: " ++ Text.quoted m.signature.render ++
    ", authenticated: " ++ toString m.authenticated ++ ", safe: " ++ toString m.safe ++
    ", validate: " ++ toString m.validate ++ " \x7d"

end Method

end Switchboard
