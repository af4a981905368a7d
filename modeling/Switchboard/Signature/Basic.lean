import Switchboard.Kind

/-!
# Signatures

What a method declares about itself: its name, its parameters with their kinds, and the kind of
its result. A signature without a parameter list is a wildcard, which takes any parameters; that
is not the same as an empty list, which takes none.
-/

namespace Switchboard

/-- A declared parameter: the name under which a named argument is found, and the kind of value
    that is expected. -/
structure Parameter where
  name : String
  kind : Kind
deriving DecidableEq, Repr

/-- A parameter as it is written in a signature. -/
def Parameter.chars (p : Parameter) : List Char := p.name.toList ++ '=' :: p.kind.name.toList

/-- The declaration of a method: its name, its parameters in order, or `none` if any will do, and
    the kind of its result. -/
structure Signature where
  name : String
  parameters? : Option (List Parameter)
  returns : Kind
deriving DecidableEq, Repr

namespace Signature

/-- The signature that declares nothing but a name. -/
def wildcard (name : String) : Signature := ⟨name, none, .any⟩

/-- Whether any parameters will do. -/
def isWildcard (s : Signature) : Bool := s.parameters?.isNone

/-- The declared parameters; a wildcard has none. -/
def parameters (s : Signature) : List Parameter := s.parameters?.getD []

/-- The names of the declared parameters. -/
def parameterNames (s : Signature) : List String := s.parameters.map (·.name)

/-- The declared parameter of a name. -/
def parameter? (s : Signature) (name : String) : Option Parameter :=
  s.parameters.find? fun p => p.name = name

/-- Parameters as they are written behind an opening parenthesis, up to the closing one. -/
def listChars : List Parameter → List Char
  | [] => [')']
  | [p] => p.chars ++ [')']
  | p :: q :: rest => p.chars ++ ',' :: ' ' :: listChars (q :: rest)

/-- A signature in its canonical form. -/
def chars (s : Signature) : List Char :=
  s.name.toList ++ (match s.parameters? with
    | none => []
    | some ps => '(' :: listChars ps) ++ " -> ".toList ++ s.returns.name.toList

/-- The canonical text of a signature, such as `m(a=String, b=Number) -> Object`. -/
def render (s : Signature) : String := String.ofList s.chars

end Signature

end Switchboard
