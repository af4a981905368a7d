import Switchboard.Number.Binary64

/-!
# JSON values

The values that requests and responses carry. An object lists its members in the order in which
they are written; `Json.object` gives the usual order, sorted by key with the last of several
members of one key kept, and that is the order in which objects are read. Member lists are
plain lists of pairs, looked up with `List.lookup`.

A number remembers whether it is an integer. Integers run from `-2 ^ 63` to `2 ^ 64 - 1`, and
everything else is a finite binary64 value (`Number.ofInt`).
-/

namespace Switchboard

/-- A JSON number: an integer or a finite binary64 value. -/
inductive Number where
  | int (n : Int)
  | float (x : Binary64)
deriving DecidableEq, Repr

namespace Number

/-- Whether an integer is kept as one: it is at least `-2 ^ 63` and below `2 ^ 64`. -/
def isExact (n : Int) : Bool := -0x8000000000000000 ≤ n && n < 0x10000000000000000

/-- An integer as a number: exactly within the range of integers, else rounded, or `none` beyond
    the finite values. -/
def ofInt? (n : Int) : Option Number :=
  if isExact n then some (.int n) else (Binary64.ofInt? n).map .float

/-- The binary64 value nearest to a number. -/
def toBinary64? : Number → Option Binary64
  | .int n => Binary64.ofInt? n
  | .float x => some x

end Number

/-- A JSON value. Named values stand in the order in which they are written. -/
inductive Json where
  | null
  | bool (b : Bool)
  | num (n : Number)
  | str (s : String)
  | arr (items : List Json)
  | obj (members : List (String × Json))
deriving Inhabited

/-- The members of an object. -/
abbrev Members := List (String × Json)

/-- Puts a member in its place in a list sorted by key, in place of one of the same key. -/
def Members.insert (key : String) (value : Json) : Members → Members
  | [] => [(key, value)]
  | (k, v) :: rest =>
    if key < k then (key, value) :: (k, v) :: rest
    else if key = k then (key, value) :: rest
    else (k, v) :: Members.insert key value rest

/-- Members sorted by key; of several members of one key the last one stays. -/
def Members.ofList (l : List (String × Json)) : Members :=
  l.foldl (fun m kv => m.insert kv.1 kv.2) []

namespace Json

/-- The object with these members, sorted by key. -/
def object (l : List (String × Json)) : Json := .obj (Members.ofList l)

/-- An integer as a value; beyond the finite values it is `null`. -/
def ofInt (n : Int) : Json := ((Number.ofInt? n).map .num).getD .null

/-- A binary64 value as a JSON value; what is not finite is `null`. -/
def ofBinary64 (x : Binary64) : Json := if x.isFinite then .num (.float x) else .null

/-- A list of texts as a value. -/
def ofStrings (l : List String) : Json := .arr (l.map .str)

/-- A value that may be missing, as `null` if it is. -/
def ofOption (v : Option Json) : Json := v.getD .null

/-- The member of an object with the given key; other values have none. -/
def get? : Json → String → Option Json
  | .obj members, key => members.lookup key
  | _, _ => none

/-- Whether the value is `null`. -/
def isNull : Json → Bool
  | .null => true
  | _ => false

/-- The text that a value is. -/
def asString? : Json → Option String
  | .str s => some s
  | _ => none

mutual

/-- Whether two values are the same, by recursion on both. -/
def decEq : (a b : Json) → Decidable (a = b)
  | .null, .null => isTrue rfl
  | .bool a, .bool b =>
    if h : a = b then isTrue (h ▸ rfl) else isFalse (fun e => h (Json.bool.inj e))
  | .num a, .num b =>
    if h : a = b then isTrue (h ▸ rfl) else isFalse (fun e => h (Json.num.inj e))
  | .str a, .str b =>
    if h : a = b then isTrue (h ▸ rfl) else isFalse (fun e => h (Json.str.inj e))
  | .arr as, .arr bs =>
    match decEqItems as bs with
    | isTrue h => isTrue (h ▸ rfl)
    | isFalse h => isFalse (fun e => h (Json.arr.inj e))
  | .obj as, .obj bs =>
    match decEqMembers as bs with
    | isTrue h => isTrue (h ▸ rfl)
    | isFalse h => isFalse (fun e => h (Json.obj.inj e))
  | .null, .bool _ | .null, .num _ | .null, .str _ | .null, .arr _ | .null, .obj _
  | .bool _, .null | .bool _, .num _ | .bool _, .str _ | .bool _, .arr _ | .bool _, .obj _
  | .num _, .null | .num _, .bool _ | .num _, .str _ | .num _, .arr _ | .num _, .obj _
  | .str _, .null | .str _, .bool _ | .str _, .num _ | .str _, .arr _ | .str _, .obj _
  | .arr _, .null | .arr _, .bool _ | .arr _, .num _ | .arr _, .str _ | .arr _, .obj _
  | .obj _, .null | .obj _, .bool _ | .obj _, .num _ | .obj _, .str _ | .obj _, .arr _ =>
    isFalse nofun

/-- Whether two lists of values are the same. -/
def decEqItems : (as bs : List Json) → Decidable (as = bs)
  | [], [] => isTrue rfl
  | [], _ :: _ => isFalse nofun
  | _ :: _, [] => isFalse nofun
  | a :: as, b :: bs =>
    match decEq a b, decEqItems as bs with
    | isTrue h, isTrue t => isTrue (h ▸ t ▸ rfl)
    | isFalse h, _ => isFalse (fun e => h (List.cons.inj e).1)
    | _, isFalse t => isFalse (fun e => t (List.cons.inj e).2)

/-- Whether two lists of members are the same. -/
def decEqMembers : (as bs : List (String × Json)) → Decidable (as = bs)
  | [], [] => isTrue rfl
  | [], _ :: _ => isFalse nofun
  | _ :: _, [] => isFalse nofun
  | (k, a) :: as, (l, b) :: bs =>
    if hk : k = l then
      match decEq a b, decEqMembers as bs with
      | isTrue h, isTrue t => isTrue (hk ▸ h ▸ t ▸ rfl)
      | isFalse h, _ => isFalse (fun e => h (Prod.mk.inj (List.cons.inj e).1).2)
      | _, isFalse t => isFalse (fun e => t (List.cons.inj e).2)
    else isFalse (fun e => hk (Prod.mk.inj (List.cons.inj e).1).1)

end

instance : DecidableEq Json := decEq

end Json

end Switchboard
