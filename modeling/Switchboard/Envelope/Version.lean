import Switchboard.Json.Basic

/-!
# Protocol versions

Two versions of the protocol share one wire. A message of version 2.0 says so in its `jsonrpc`
member; every other message is of version 1.0, which knows neither that member nor parameters by
name.
-/

namespace Switchboard

/-- A version of the protocol: 1.0 or 2.0. -/
inductive Version where
  | v1
  | v2
deriving DecidableEq, Repr, Inhabited

namespace Version

/-- The version that a `jsonrpc` member stands for: the text or the number `2.0` is version 2.0,
    and everything else, like no member, is version 1.0. -/
def ofMember : Option Json → Version
  | some (.str s) => if s = "2.0" then .v2 else .v1
  | some (.num n) => if n.toBinary64? = some Binary64.two then .v2 else .v1
  | _ => .v1

/-- The text of the `jsonrpc` member, which version 1.0 leaves out. -/
def tag? : Version → Option String
  | .v1 => none
  | .v2 => some "2.0"

/-- Whether parameters may be given by name. -/
def allowsNamed : Version → Bool
  | .v1 => false
  | .v2 => true

/-- The version as a text. -/
def text : Version → String
  | .v1 => "1.0"
  | .v2 => "2.0"

/-- A version is recognised by the tag it is sent with, or by having none. -/
theorem ofMember_tag? (v : Version) : ofMember (v.tag?.map .str) = v := by cases v <;> rfl

end Version

end Switchboard
