import Switchboard.Fault
import Switchboard.Http.Header
import Switchboard.Text.Blank

/-!
# Bearer tokens and other ways to know a caller

Whether a caller is known is settled once for a connection, by the headers of its handshake. The
usual way is a token: the client sends it in the `Authorization` header behind the word `Bearer`
and one space, and the server compares it, without the blanks around it, with the one that it
expects.
-/

namespace Switchboard

/-- What decides from the headers of a handshake whether a caller is known. -/
abbrev Authenticator := Headers → Bool

/-- The authenticator that asks for a header of a name, whatever its value. -/
def Authenticator.requireHeader (name : String) : Authenticator := fun headers =>
  headers.contains name

/-- A token that a server expects. -/
structure BearerToken where
  token : String
deriving DecidableEq, Repr

namespace BearerToken

/-- What stands in front of a token in the header. -/
def scheme : List Char := ['B', 'e', 'a', 'r', 'e', 'r', ' ']

/-- What follows the scheme in the text of a value. -/
def afterScheme? (text : List Char) : Option (List Char) :=
  if scheme.isPrefixOf text then some (text.drop scheme.length) else none

/-- The token that the headers present, without the blanks around it. -/
def presented? (headers : Headers) : Option String := do
  let header ← headers.find? "authorization"
  let text ← header.text?
  let token ← afterScheme? text
  return String.ofList (Text.trim token)

/-- Whether the headers present this token. -/
def accepts (t : BearerToken) : Authenticator := fun headers =>
  presented? headers = some t.token

/-- The token in one line, for diagnosis, which does not tell it. -/
def summary (_ : BearerToken) : String :=
  "BearerToken \x7b token: " ++ "\"<redacted>\"" ++ " \x7d"

/-- The header in which a client presents a token, if the token can be put into one. -/
def header? (token : String) : Option Header :=
  Header.make? "authorization" ("Bearer " ++ token)

/-- The headers of a client with or without a token. -/
def headersOf : Option String → Except Fault Headers
  | none => .ok []
  | some token =>
    match header? token with
    | some h => .ok [h]
    | none => .error (.usage "Invalid token: failed to parse header value")

end BearerToken

end Switchboard
