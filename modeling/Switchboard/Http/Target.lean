import Switchboard.Http.Address

/-!
# Targets of connections

The text that says where a client connects to. It has a scheme and `://`, an authority, and a path
perhaps with a query; or it is an authority alone, or a path alone. The authority names the host,
perhaps with user information in front of it and the number of a socket behind it. Nothing can be
asked of a target that names no host. Whether the scheme is one that can be spoken shows only when a
connection is made.
-/

namespace Switchboard

namespace Target

/-! ## Characters -/

/-- Whether a character may stand in a scheme. -/
def isSchemeChar (c : Char) : Bool := c.isAlphanum || "+-.~".toList.contains c

/-- Whether a character may stand in an authority, apart from the percent sign. -/
def isAuthorityChar (c : Char) : Bool :=
  c.isAlphanum || "!$&'()*+,-.:;=@[]_~".toList.contains c

/-- Whether a character ends an authority. -/
def endsAuthority (c : Char) : Bool := c = '/' || c = '?' || c = '#'

/-- Whether a character may stand in a path. -/
def isPathChar (c : Char) : Bool := 0x21 ≤ c.toNat && !"#<>?\x60".toList.contains c

/-- Whether a character may stand in a query. -/
def isQueryChar (c : Char) : Bool := 0x21 ≤ c.toNat && !"\"#<>".toList.contains c

/-! ## Authorities -/

/-- What is known about an authority after some of its characters. What stands in front of an at
    sign is user information, and the brackets hold an address of version 6; neither counts any
    more once it is closed. Kept are the number of colons that count, whether brackets have been
    opened and closed, whether there is a percent sign that counts, whether the last character was
    an at sign, and the characters behind the last at sign, backwards. -/
structure Scan where
  colons : Nat := 0
  opened : Bool := false
  closed : Bool := false
  percent : Bool := false
  atSign : Bool := false
  host : List Char := []

/-- Takes in one character of an authority, unless it cannot stand there. -/
def Scan.step (s : Scan) (c : Char) : Option Scan :=
  let s := { s with atSign := false, host := c :: s.host }
  match c with
  | ':' => if s.colons < 8 then some { s with colons := s.colons + 1 } else none
  | '[' => if s.percent || s.opened then none else some { s with opened := true }
  | ']' =>
    if s.opened && !s.closed then some { s with closed := true, colons := 0, percent := false }
    else none
  | '@' => some { s with colons := 0, percent := false, atSign := true, host := [] }
  | '%' => some { s with percent := true }
  | c => if isAuthorityChar c then some s else none

/-- Whether the authority may end here. -/
def Scan.isComplete (s : Scan) : Bool :=
  s.opened = s.closed && s.colons ≤ 1 && !s.atSign && !s.percent

/-- The host and socket of an authority, if it is well formed. -/
def hostOf? (authority : List Char) : Option (List Char) := do
  let s ← authority.foldlM Scan.step {}
  if s.isComplete then return s.host.reverse else none

/-! ## Targets -/

/-- Whether a text is a path, perhaps with a query and a fragment. -/
def isPath (s : List Char) : Bool :=
  let rest := s.dropWhile fun c => c ≠ '?' && c ≠ '#'
  (s.takeWhile fun c => c ≠ '?' && c ≠ '#').all isPathChar &&
    match rest with
    | '?' :: query => (query.takeWhile (· ≠ '#')).all isQueryChar
    | _ => true

/-- The scheme of a text and what follows it, if it has one. -/
def scheme? (s : List Char) : Option (List Char × List Char) :=
  match s.dropWhile isSchemeChar with
  | ':' :: '/' :: '/' :: rest => some (s.takeWhile isSchemeChar, rest)
  | _ => none

/-- The host and socket that a target names; `none` if the text is no target or names no host. -/
def authority? (s : List Char) : Option (List Char) :=
  match scheme? s with
  | some (scheme, rest) =>
    let authority := rest.takeWhile fun c => !endsAuthority c
    if scheme.length ≤ 64 && !authority.isEmpty &&
        isPath (rest.dropWhile fun c => !endsAuthority c) then hostOf? authority
    else none
  | none => if s.any endsAuthority then none else hostOf? s

/-- Whether a connection can be asked for: the text names a host. A lone asterisk, which stands for
    a server as a whole, names none. -/
def isRequestable (text : String) : Bool :=
  text.utf8ByteSize < 0xFFFF && text ≠ "*" &&
    match authority? text.toList with
    | some host => !host.isEmpty
    | none => false

/-- Whether a text is a target: an asterisk, a path, an authority, or a scheme with an authority and
    perhaps a path. -/
def isWellFormed (text : String) : Bool :=
  text.utf8ByteSize < 0xFFFF &&
    match text.toList with
    | [] => false
    | ['*'] => true
    | '/' :: path => isPath ('/' :: path)
    | s => (authority? s).isSome

/-- The address that can be connected to: the scheme is `ws`, and the host is given by its address
    and the number of a socket. -/
def endpoint? (text : String) : Option SocketAddress :=
  match scheme? text.toList, authority? text.toList with
  | some (scheme, _), some host =>
    if scheme.map Char.toLower = ['w', 's'] then SocketAddress.parse? (String.ofList host)
    else none
  | _, _ => none

end Target

end Switchboard
