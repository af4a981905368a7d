import Switchboard.Method.Basic

/-!
# Checking calls against signatures

A method that asks for it has its parameters and its result checked. Parameters by position must be
as many as declared and each of the declared kind; of parameters by name every declared one must be
there and of the declared kind, and others do not matter. A method that declares no parameters
takes any, but its result is checked all the same.
-/

namespace Switchboard

/-- How parameters differ from the declared ones: there are more or fewer of them, the one at a
    position or under a name is of another kind than declared, or there is none under a name. -/
inductive Violation where
  | count (declared given : Nat)
  | kindAt (position : Nat) (declared : Parameter) (given : Kind)
  | kindOf (declared : Parameter) (given : Kind)
  | missing (name : String)
deriving DecidableEq, Repr

/-- The wording of a violation in a call of a method. -/
def Violation.message (method : String) : Violation → String
  | .count declared given =>
    method ++ " takes " ++ toString declared ++ " argument(s), " ++ toString given ++ " given"
  | .kindAt position p given =>
    method ++ " argument " ++ toString position ++ " (`" ++ p.name ++ "`) must be " ++
      p.kind.name ++ ", got " ++ given.name
  | .kindOf p given =>
    method ++ " argument `" ++ p.name ++ "` must be " ++ p.kind.name ++ ", got " ++ given.name
  | .missing name => method ++ " missing required argument `" ++ name ++ "`"

/-- The first value that is not of the kind declared at its position. -/
def positionalViolation? (position : Nat) : List Parameter → List Json → Option Violation
  | p :: ps, v :: vs =>
    if p.kind.admits v then positionalViolation? (position + 1) ps vs
    else some (.kindAt position p (Kind.of v))
  | _, _ => none

/-- The first declared parameter that is missing or not of its kind. -/
def namedViolation? (members : Members) : List Parameter → Option Violation
  | [] => none
  | p :: ps =>
    match members.lookup p.name with
    | none => some (.missing p.name)
    | some v => if p.kind.admits v then namedViolation? members ps else some (.kindOf p (Kind.of v))

/-- The first way in which parameters differ from the declared ones. -/
def violation? (declared : List Parameter) : Params → Option Violation
  | .positional items =>
    if items.length ≠ declared.length then some (.count declared.length items.length)
    else positionalViolation? 0 declared items
  | .named members => namedViolation? members declared

namespace Method

variable {σ : Type}

/-- Checks the parameters of a call, if the method asks for it and declares any. -/
def checkParams (m : Method σ) (params : Params) : Except Fault Unit :=
  if m.validate && !m.signature.isWildcard then
    match violation? m.signature.parameters params with
    | none => .ok ()
    | some v => .error (.invalidParams (v.message m.name))
  else .ok ()

/-- Checks a result, if the method asks for it. -/
def checkResult (m : Method σ) (result : Json) : Except Fault Unit :=
  if m.validate && !m.signature.returns.admits result then
    .error (.internal (m.name ++ " returned " ++ (Kind.of result).name ++ ", declared " ++
      m.signature.returns.name))
  else .ok ()

end Method

end Switchboard
