import Switchboard.Json.Token

/-!
# Writing JSON

A value is first flattened into tokens and then each token is written, with nothing between
them. Members keep the order that the object has.
-/

namespace Switchboard.Json

mutual

/-- The tokens that a value is written with. -/
def tokens : Json → List Token
  | .null => [.null]
  | .bool b => [.bool b]
  | .num n => [.num n]
  | .str s => [.str s]
  | .arr items => .openArray :: itemTokens items
  | .obj members => .openObject :: memberTokens members

/-- The tokens behind an opening bracket. -/
def itemTokens : List Json → List Token
  | [] => [.closeArray]
  | v :: rest => v.tokens ++ laterItemTokens rest

/-- The tokens behind an item of an array. -/
def laterItemTokens : List Json → List Token
  | [] => [.closeArray]
  | v :: rest => .comma :: (v.tokens ++ laterItemTokens rest)

/-- The tokens behind an opening brace. -/
def memberTokens : List (String × Json) → List Token
  | [] => [.closeObject]
  | (k, v) :: rest => .str k :: .colon :: (v.tokens ++ laterMemberTokens rest)

/-- The tokens behind a member of an object. -/
def laterMemberTokens : List (String × Json) → List Token
  | [] => [.closeObject]
  | (k, v) :: rest => .comma :: .str k :: .colon :: (v.tokens ++ laterMemberTokens rest)

end

/-- The text of a value. -/
def render (v : Json) : String := String.ofList (v.tokens.flatMap Token.chars)

/-- The bytes of a value's text. -/
def toBytes (v : Json) : ByteArray := v.render.toUTF8

end Switchboard.Json
