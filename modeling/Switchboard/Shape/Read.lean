import Switchboard.Shape.Basic

/-!
# Reading values by their shape

`Shape.read` turns a value of a shape into its normal form, in which integers read as binary64
values have become such values, and a record is an object with its members in declared order. Of
several faults the first one counts: arrays are read from left to right and objects in the order
of their keys, and only then is it seen whether anything is missing or left over.
-/

namespace Switchboard.Shape

/-- The wording of a tuple of a size. -/
def tupleWording (size : Nat) : String := "a tuple of size " ++ toString size

/-- The wording of a record that is read from an array. -/
def recordWording (name : String) (size : Nat) : String :=
  "struct " ++ name ++ " with " ++ toString size ++ (if size = 1 then " element" else " elements")

/-- Puts the members of a record in declared order and fills in those that are not given. -/
def completeRecord (given : Members) : List Field → Except Mismatch Members
  | [] => .ok []
  | f :: fields => do
    let here ← match given.lookup f.name, f.ifMissing with
      | some v, _ => pure [(f.name, v)]
      | none, .take v => pure [(f.name, v)]
      | none, .leaveOut => pure []
      | none, .refuse =>
        if f.isNullable then pure [(f.name, .null)] else throw (.missingMember f.name)
    let rest ← completeRecord given fields
    pure (here ++ rest)

mutual

/-- The normal form of a value of the shape, or how the value fails to have it. -/
def read : Shape → Json → Except Mismatch Json
  | .any, v => .ok v
  | .text, v =>
    match v with
    | .str s => .ok (.str s)
    | v => .error (.sort v "a string")
  | .truth, v =>
    match v with
    | .bool b => .ok (.bool b)
    | v => .error (.sort v "a boolean")
  | .unit, v =>
    match v with
    | .null => .ok .null
    | v => .error (.sort v "unit")
  | .float, v =>
    match v with
    | .num n =>
      match n.toBinary64? with
      | some x => .ok (.num (.float x))
      | none => .ok .null
    | v => .error (.sort v "f64")
  | .integer width, v =>
    match v with
    | .num (.int n) => if width.holds n then .ok (.num (.int n)) else .error (.range n width)
    | v => .error (.sort v width.name)
  | .nullable inner, v =>
    match v with
    | .null => .ok .null
    | v => inner.read v
  | .list item, v =>
    match v with
    | .arr items => (items.mapM fun v => item.read v).map .arr
    | v => .error (.sort v "a sequence")
  | .map value, v =>
    match v with
    | .obj members =>
      (members.mapM fun kv : String × Json => (value.read kv.2).map fun v => (kv.1, v)).map .obj
    | v => .error (.sort v "a map")
  | .tuple shapes, v =>
    match v with
    | .arr items => (readItems shapes shapes.length 0 items).map .arr
    | v => .error (.sort v (tupleWording shapes.length))
  | .record name fields, v =>
    match v with
    | .arr items => (readFields fields (recordWording name fields.length) 0 items).map .obj
    | .obj members => do
      let given ← members.mapM fun kv : String × Json => readMember fields kv.1 kv.2
      (completeRecord (given.filterMap id) fields).map .obj
    | v => .error (.sort v ("struct " ++ name))
  | .container name, v =>
    match v with
    | .arr items => .ok (.arr items)
    | .obj members => .ok (.obj members)
    | _ => .error (.noVariant name)

/-- Reads the items of a tuple of a size from a position on. -/
def readItems : List Shape → Nat → Nat → List Json → Except Mismatch (List Json)
  | [], _, _, [] => .ok []
  | [], _, position, v :: rest => .error (.tooLong (position + (v :: rest).length))
  | _ :: _, size, position, [] => .error (.tooShort position (tupleWording size))
  | s :: shapes, size, position, v :: rest => do
    let v ← s.read v
    let vs ← readItems shapes size (position + 1) rest
    .ok (v :: vs)

/-- Reads the members of a record in order from the items of an array from a position on. -/
def readFields : List Field → String → Nat → List Json → Except Mismatch Members
  | [], _, _, [] => .ok []
  | [], _, position, v :: rest => .error (.tooLong (position + (v :: rest).length))
  | .mk name _ ifMissing :: fields, wording, position, [] =>
    match ifMissing with
    | .refuse => .error (.tooShort position wording)
    | .take v => do
      let rest ← readFields fields wording (position + 1) []
      .ok ((name, v) :: rest)
    | .leaveOut => readFields fields wording (position + 1) []
  | .mk name shape _ :: fields, wording, position, v :: rest => do
    let v ← shape.read v
    let vs ← readFields fields wording (position + 1) rest
    .ok ((name, v) :: vs)

/-- Reads the member of an object that belongs to a record; other members are passed over. -/
def readMember : List Field → String → Json → Except Mismatch (Option (String × Json))
  | [], _, _ => .ok none
  | .mk name shape _ :: fields, key, v =>
    if key = name then (shape.read v).map fun v => some (name, v)
    else readMember fields key v

end

end Switchboard.Shape
