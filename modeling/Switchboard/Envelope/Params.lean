import Switchboard.Shape.Read

/-!
# Parameters

A request carries its parameters by position or by name. In a request body the member may be
missing or `null`, which means no parameters (`Params.ofMember?`); as a value of its own it has to
be an array or an object (`Params.read`).
-/

namespace Switchboard

/-- The parameters of a request: values in order or under names. -/
inductive Params where
  | positional (items : List Json)
  | named (members : Members)
deriving DecidableEq

namespace Params

instance : Inhabited Params := ⟨.positional []⟩

/-- The parameters that the `params` member of a request stands for, if it stands for any. -/
def ofMember? : Option Json → Option Params
  | none => some (.positional [])
  | some .null => some (.positional [])
  | some (.arr items) => some (.positional items)
  | some (.obj members) => some (.named members)
  | some _ => none

/-- The shape that parameters are read from. -/
def shape : Shape := .container "Params"

/-- The parameters that an array or an object stands for; other values stand for none. -/
def ofContainer : Json → Params
  | .obj members => .named members
  | .arr items => .positional items
  | _ => .positional []

/-- Reads parameters from a value that has to be an array or an object. -/
def read (v : Json) : Except Mismatch Params := (shape.read v).map ofContainer

/-- The parameters as an array or an object. -/
def toJson : Params → Json
  | .positional items => .arr items
  | .named members => .obj members

/-- Whether the parameters are given by name. -/
def isNamed : Params → Bool
  | .positional _ => false
  | .named _ => true

/-- The number of values. -/
def size : Params → Nat
  | .positional items => items.length
  | .named members => members.length

/-- The value at a position or under a name, whichever the parameters go by. -/
def get? : Params → Nat → String → Option Json
  | .positional items, position, _ => items[position]?
  | .named members, _, name => members.lookup name

end Params

end Switchboard
