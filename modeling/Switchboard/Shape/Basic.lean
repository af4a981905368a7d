import Switchboard.Json.Basic
import Switchboard.Number.Notation
import Switchboard.Text.Quoted

/-!
# Shapes of typed data

A shape says which JSON values a typed argument, result or envelope is read from. Reading is in
`Switchboard.Shape.Read`; this file holds the shapes, the ways in which a value can fail to have
one, and the wording of those failures.
-/

namespace Switchboard

/-- The integer types that arguments are read into, by their number of bits, with a sign or
    without. -/
inductive Width where
  | unsigned8
  | unsigned64
  | signed32
  | signed64
deriving DecidableEq, Repr

namespace Width

/-- The name that messages use. -/
def name : Width → String
  | .unsigned8 => "u8"
  | .unsigned64 => "u64"
  | .signed32 => "i32"
  | .signed64 => "i64"

/-- Whether an integer is of the type. -/
def holds : Width → Int → Bool
  | .unsigned8, n => 0 ≤ n && n < 0x100
  | .unsigned64, n => 0 ≤ n && n < 0x10000000000000000
  | .signed32, n => -0x80000000 ≤ n && n < 0x80000000
  | .signed64, n => -0x8000000000000000 ≤ n && n < 0x8000000000000000

end Width

/-- What takes the place of a member of a record that is not given. `refuse` takes nothing: the
    member has to be given, and only a nullable member may then still be left out of an object.
    With `leaveOut` the record goes without the member. -/
inductive IfMissing where
  | refuse
  | take (v : Json)
  | leaveOut

mutual

/-- The form of the values that are read into a type. Numbers are read as binary64 values or as
    integers of a type; `nullable` also takes `null`; a tuple is an array with a shape for each
    item; a record is read from an object or in order from an array; and a container is any array
    or object, under the name that messages use. -/
inductive Shape where
  | any
  | text
  | truth
  | unit
  | float
  | integer (width : Width)
  | nullable (inner : Shape)
  | list (item : Shape)
  | map (value : Shape)
  | tuple (items : List Shape)
  | record (name : String) (fields : List Field)
  | container (name : String)

/-- A member of a record: its name, its shape, and what takes its place if it is not given. -/
inductive Field where
  | mk (name : String) (shape : Shape) (ifMissing : IfMissing)

end

/-- The name of a member. -/
def Field.name : Field → String
  | .mk name _ _ => name

/-- What takes the place of a member that is not given. -/
def Field.ifMissing : Field → IfMissing
  | .mk _ _ m => m

/-- Whether a member may be `null` whatever else it is. -/
def Field.isNullable : Field → Bool
  | .mk _ (.nullable _) _ => true
  | .mk _ _ _ => false

/-- How a value fails to have a shape: it is of another sort than the wanted one or an integer
    outside the wanted type, an array ends too early at a position or goes on too long, an object
    lacks a member, or a value is neither an array nor an object. -/
inductive Mismatch where
  | sort (found : Json) (wanted : String)
  | range (found : Int) (width : Width)
  | tooShort (position : Nat) (wanted : String)
  | tooLong (length : Nat)
  | missingMember (name : String)
  | noVariant (name : String)

/-- A value as a message about it says what it is. -/
def Json.description : Json → String
  | .null => "null"
  | .bool b => "boolean `" ++ toString b ++ "`"
  | .num (.int n) => "integer `" ++ String.ofList (intDigits n) ++ "`"
  | .num (.float x) => "floating point `" ++ String.ofList x.chars ++ "`"
  | .str s => "string " ++ Text.quoted s
  | .arr _ => "sequence"
  | .obj _ => "map"

/-- The wording of a mismatch. -/
def Mismatch.message : Mismatch → String
  | .sort found wanted => "invalid type: " ++ found.description ++ ", expected " ++ wanted
  | .range found width =>
    "invalid value: integer `" ++ String.ofList (intDigits found) ++ "`, expected " ++ width.name
  | .tooShort position wanted => "invalid length " ++ toString position ++ ", expected " ++ wanted
  | .tooLong length =>
    "invalid length " ++ toString length ++ ", expected fewer elements in array"
  | .missingMember name => "missing field `" ++ name ++ "`"
  | .noVariant name => "data did not match any variant of untagged enum " ++ name

end Switchboard
