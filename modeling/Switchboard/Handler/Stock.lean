import Switchboard.Handler.Typed

/-!
# Ready-made handlers

Small handlers for trying out a service and its clients. The first group looks at the parameters as
they come and at the context; the second is typed. None of them has a state.
-/

namespace Switchboard

/-- A ready-made handler. Those up to `panic` look at the parameters as they come or at the
    context; an argument is found at a position or under a name, and `argument` needs it to be
    there. The others take typed arguments: two texts, of which `joinOptional` takes `null` for the
    second, five texts of which the last may be `null`, a record, integers of three types, a
    number, a truth value, a list or a map. `unwritable` ends in a fault, because what it returns
    cannot be written, `notANumber` in a value that is no number, and `failing` in a fault of its
    own. -/
inductive Stock where
  | argument (position : Nat) (name : String)
  | argumentOrNull (position : Nat) (name : String)
  | concat (first second : String)
  | const (v : Json)
  | params
  | count
  | context
  | fault (f : Fault)
  | panic (text? : Option String)
  | joinTexts
  | joinOptional
  | listFive
  | echo
  | listMixed
  | listIntegers
  | float
  | negate
  | length
  | keys
  | nameValues
  | unwritable
  | notANumber
  | failing (f : Fault)

namespace Stock

/-- The argument at a position or under a name, which has to be there. -/
def need (p : Params) (position : Nat) (name : String) : Except Fault Json :=
  match p.get? position name with
  | some v => .ok v
  | none => .error (.invalidParams ("missing argument `" ++ name ++ "`"))

/-- The texts of two arguments joined. -/
def concatArguments (first second : String) (p : Params) : Except Fault Json := do
  let a ← need p 0 first
  let b ← need p 1 second
  match a, b with
  | .str a, .str b => .ok (.str (a ++ b))
  | _, _ => .error (.internal "cannot concatenate non-strings")

/-- What is known about a call. -/
def describeContext (ctx : Context) : Json :=
  .object [("method", .str ctx.method),
    ("id", Json.ofOption (ctx.id?.map fun id => .str id.display)),
    ("version", .str ctx.version.text), ("authenticated", .bool ctx.authenticated),
    ("param_names", .ofStrings ctx.parameterNames), ("notification", .bool ctx.isNotification)]

/-- A typed handler without a state whose result is a function of its parameters. -/
def pureTyped (shape : Shape) (run : Json → Outcome) {σ : Type} : Handler σ :=
  Handler.typed shape fun _ v s => (run v, s)

/-- The shape of the record with one text. -/
def echoShape : Shape := .record "Echo" [.mk "string" .text .refuse]

/-- The shape of the record with a member in the middle that may be left out. -/
def mixedShape : Shape :=
  .record "Mixed" [
    .mk "a" (.integer .signed64) .refuse,
    .mk "b" (.nullable .truth) (.take .null),
    .mk "c" (.list .text) .refuse]

/-- The text that a value is, or no text for `null`. -/
def textOrEmpty (v : Json) : String := v.asString?.getD ""

/-- The list of the items of an array in normal form. -/
def itemsOf : Json → List Json
  | .arr items => items
  | _ => []

/-- The result of joining the texts of an array. -/
def joinItems (v : Json) : Outcome :=
  .value (.str (String.join ((itemsOf v).map textOrEmpty)))

/-- The handler that goes by the description. -/
def handler {σ : Type} : Stock → Handler σ
  | .argument position name => .stateless fun _ p => .ofExcept (need p position name)
  | .argumentOrNull position name =>
    .stateless fun _ p => .value (Json.ofOption (p.get? position name))
  | .concat first second => .stateless fun _ p => .ofExcept (concatArguments first second p)
  | .const v => .stateless fun _ _ => .value v
  | .params => .stateless fun _ p => .value p.toJson
  | .count => .stateless fun _ p =>
    .value (.object [("len", .ofInt p.size), ("empty", .bool (p.size = 0)),
      ("named", .bool p.isNamed)])
  | .context => .stateless fun ctx _ => .value (describeContext ctx)
  | .fault f => .stateless fun _ _ => .fault f
  | .panic text? => .stateless fun _ _ => .panic text?
  | .joinTexts => pureTyped (.tuple [.text, .text]) joinItems
  | .joinOptional => pureTyped (.tuple [.text, .nullable .text]) joinItems
  | .listFive => pureTyped (.tuple [.text, .text, .text, .text, .nullable .text]) fun v =>
    .value (.arr ((itemsOf v).map fun w => if w.isNull then .str "Default" else w))
  | .echo => pureTyped echoShape fun v => .value (Json.ofOption (v.get? "string"))
  | .listMixed => pureTyped mixedShape fun v =>
    .value (.arr (["a", "b", "c"].map fun k => Json.ofOption (v.get? k)))
  | .listIntegers =>
    pureTyped (.tuple [.integer .unsigned8, .integer .signed32, .integer .unsigned64]) .value
  | .float => pureTyped (.tuple [.float]) fun v => .value ((itemsOf v).headD .null)
  | .negate => pureTyped (.tuple [.truth]) fun
    | .arr [.bool b] => .value (.bool !b)
    | v => .value v
  | .length => pureTyped (.list .any) fun v => .value (.ofInt (itemsOf v).length)
  | .keys => pureTyped (.map .any) fun
    | .obj members => .value (.ofStrings (members.map (·.1)))
    | v => .value v
  | .nameValues => pureTyped (.tuple [.any, .any]) fun
    | .arr [a, b] => .value (.object [("obj1", a), ("arr1", b)])
    | v => .value v
  | .unwritable => pureTyped (.list .any) fun _ => .fault (.serialization "key must be a string")
  | .notANumber => pureTyped (.list .any) fun _ => .value (.ofBinary64 .nan)
  | .failing f => pureTyped (.list .any) fun _ => .fault f

end Stock

end Switchboard
