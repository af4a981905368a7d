import Switchboard.Json.Basic
import Switchboard.Text.Blank

/-!
# Kinds of values

A method declares a kind for each parameter and for its result. Six kinds name the six sorts of
JSON values and `any` admits all of them. In a signature a kind is written as a word; each kind
has a canonical name, which is how it is shown, and several further words, which are read in any
case and with blanks around them.
-/

namespace Switchboard

/-- A declared type of a parameter or a result. Every value is of kind `any`, and only `null` is
    `nil`. -/
inductive Kind where
  | any
  | string
  | number
  | boolean
  | object
  | array
  | nil
deriving DecidableEq, Repr

namespace Kind

/-- Every kind, in the order in which they are listed. -/
def all : List Kind := [.any, .string, .number, .boolean, .object, .array, .nil]

/-- The canonical name. -/
def name : Kind → String
  | .any => "Any"
  | .string => "String"
  | .number => "Number"
  | .boolean => "Boolean"
  | .object => "Object"
  | .array => "Array"
  | .nil => "Nil"

/-- The words that stand for a kind in a signature, in lower case. -/
def words : Kind → List String
  | .any => ["any"]
  | .string => ["string", "str", "unicode"]
  | .number => ["number", "num", "int", "integer", "float", "long", "double"]
  | .boolean => ["boolean", "bool"]
  | .object => ["object", "obj", "dict", "map"]
  | .array => ["array", "arr", "list", "tuple", "set"]
  | .nil => ["nil", "null", "none"]

/-- The sort of a value. It is never `any`. -/
def of : Json → Kind
  | .null => .nil
  | .bool _ => .boolean
  | .num _ => .number
  | .str _ => .string
  | .arr _ => .array
  | .obj _ => .object

/-- Whether a value is of a declared kind. -/
def admits (k : Kind) (v : Json) : Bool := k = .any || k = of v

/-- The kind that a word stands for, whatever the case of its ASCII letters. -/
def ofWord? (word : List Char) : Option Kind :=
  let lower := String.ofList (word.map Char.toLower)
  all.find? fun k => k.words.contains lower

/-- The kind that a type token stands for; blanks around the word do not count. -/
def ofToken? (token : String) : Option Kind := ofWord? (Text.trim token.toList)

/-- The kind with exactly this canonical name. -/
def ofName? (name : String) : Option Kind := all.find? fun k => k.name = name

theorem of_ne_any (v : Json) : of v ≠ .any := by cases v <;> simp [of]

end Kind

instance : Inhabited Kind := ⟨.any⟩

end Switchboard
