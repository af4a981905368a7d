import Switchboard.Json.Printer

/-!
# Ids of calls

An id ties a response to its request. It is meant to be a text, a number or `null`, but any value
is taken and echoed. An id is made from a value in two ways that must agree: by its sort
(`Id.ofJson`), and by trying one form after the other (`Id.read`).
-/

namespace Switchboard

/-- The id of a call: `null` is no id to speak of, and `other` any value that is neither a text nor
    a number. -/
inductive Id where
  | null
  | text (s : String)
  | number (n : Number)
  | other (v : Json)
deriving DecidableEq

namespace Id

instance : Inhabited Id := ⟨.null⟩

/-- The id that a value stands for, by the sort of the value. -/
def ofJson : Json → Id
  | .null => .null
  | .str s => .text s
  | .num n => .number n
  | v => .other v

/-- The value of an id. -/
def toJson : Id → Json
  | .null => .null
  | .text s => .str s
  | .number n => .num n
  | .other v => v

/-- The id that is a natural number, such as a client gives to its calls. -/
def ofNat (n : Nat) : Id := .number (.int n)

/-- Whether an id is the null id. -/
def isNull : Id → Bool
  | .null => true
  | _ => false

/-- The forms of an id, each with the values that it takes. -/
def forms : List (Json → Option Id) :=
  [fun v => if v.isNull then some .null else none,
    fun v => v.asString?.map .text,
    fun v => match v with
      | .num n => some (.number n)
      | _ => none,
    fun v => some (.other v)]

/-- Reads an id: the first form that takes the value. -/
def read (v : Json) : Option Id := forms.findSome? fun form => form v

/-- An id as it is shown to people: a text between quotes but otherwise as it is, and any other
    id as JSON. -/
def display : Id → String
  | .text s => "\"" ++ s ++ "\""
  | id => id.toJson.render

/-- Whatever is taken for an id is sent back as it came. -/
theorem ofJson_toJson_of_ofJson (v : Json) : (ofJson v).toJson = v := by cases v <;> rfl

end Id

end Switchboard
