import Switchboard.Json.Token
import Switchboard.Number.Notation

/-!
# Socket addresses

Where a server listens: the address of a host, of version 4 or 6, and the number of a socket there.
A text for an address of version 4 has four octets in decimal, without leading zeros, between dots.
One of version 6 stands in brackets: eight groups of up to four hexadecimal digits between colons,
of which the last two may be written as an address of version 4 and one run of zero groups as two
colons, and after it perhaps the number of a scope. The number of the socket follows behind a
colon.

Reading goes from left to right. Each reader returns what it has read and the rest of the text.
-/

namespace Switchboard

/-- The address of a host: four octets in version 4, or eight groups in version 6 with a scope,
    which is zero if there is none. -/
inductive Host where
  | v4 (a b c d : UInt8)
  | v6 (groups : List UInt16) (scope : UInt32)
deriving DecidableEq, Repr

/-- The address of a host and the number of a socket there; zero stands for any that is free. -/
structure SocketAddress where
  host : Host
  socket : UInt16
deriving DecidableEq, Repr

namespace SocketAddress

/-! ## Reading -/

/-- What a reader of a part of an address makes of a text. -/
abbrev Reader (α : Type) := List Char → Option (α × List Char)

/-- Reads one character. -/
def char (c : Char) : Reader Unit
  | d :: rest => if c = d then some ((), rest) else none
  | [] => none

/-- The value of a digit of a base up to sixteen. -/
def digit? (base : Nat) (c : Char) : Option Nat := (hexValue? c).filter fun v => v < base

/-- The longest run of digits in front of a text. -/
def digits (base : Nat) : List Char → List Nat × List Char
  | [] => ([], [])
  | c :: rest =>
    match digit? base c with
    | some v => let (vs, rest) := digits base rest; (v :: vs, rest)
    | none => ([], c :: rest)

/-- The number that digits stand for. -/
def valueOf (base : Nat) (l : List Nat) : Nat := l.foldl (fun n v => base * n + v) 0

/-- Reads a number below a bound with any number of digits. -/
def number (base bound : Nat) : Reader Nat := fun s =>
  match digits base s with
  | ([], _) => none
  | (ds, rest) => if valueOf base ds < bound then some (valueOf base ds, rest) else none

/-- Reads an octet: a number below 256 without leading zeros. -/
def octet : Reader UInt8 := fun s =>
  match digits 10 s with
  | (0 :: _ :: _, _) => none
  | _ => (number 10 256 s).map fun (n, rest) => (n.toUInt8, rest)

/-- Reads a group of up to four hexadecimal digits. -/
def group : Reader UInt16 := fun s =>
  if (digits 16 s).1.length ≤ 4 then
    (number 16 UInt16.size s).map fun (n, rest) => (n.toUInt16, rest)
  else none

/-- Reads an address of version 4. -/
def octets : Reader (UInt8 × UInt8 × UInt8 × UInt8) := fun s => do
  let (a, s) ← octet s
  let (_, s) ← char '.' s
  let (b, s) ← octet s
  let (_, s) ← char '.' s
  let (c, s) ← octet s
  let (_, s) ← char '.' s
  let (d, s) ← octet s
  return ((a, b, c, d), s)

/-- Reads what stands in front of a group: nothing for the first group, a colon for others. -/
def separator (isFirst : Bool) : Reader Unit := fun s =>
  if isFirst then some ((), s) else char ':' s

/-- Two octets as a group. -/
def joinOctets (high low : UInt8) : UInt16 := high.toUInt16 * 256 + low.toUInt16

/-- Reads an address of version 4 as the last two groups of one of version 6. -/
def embedded (isFirst : Bool) : Reader (List UInt16) := fun s => do
  let (_, s) ← separator isFirst s
  let ((a, b, c, d), s) ← octets s
  return ([joinOctets a b, joinOctets c d], s)

/-- Reads one group. -/
def single (isFirst : Bool) : Reader UInt16 := fun s => do
  let (_, s) ← separator isFirst s
  group s

/-- Groups that have been read, whether the last two of them were written as an address of version
    4, and the rest of the text. -/
structure Groups where
  groups : List UInt16
  isEmbedded : Bool
  rest : List Char

/-- Reads as many groups as there are, up to a number of them. -/
def groups : Nat → Bool → List Char → Groups
  | 0, _, s => ⟨[], false, s⟩
  | n + 1, isFirst, s =>
    match if n = 0 then none else embedded isFirst s with
    | some (pair, rest) => ⟨pair, true, rest⟩
    | none =>
      match single isFirst s with
      | some (g, rest) =>
        let more := groups n false rest
        { more with groups := g :: more.groups }
      | none => ⟨[], false, s⟩

/-- Reads the eight groups of an address of version 6. Two colons stand for at least one zero
    group, and no address of version 4 may stand in front of them. -/
def eightGroups : Reader (List UInt16) := fun s =>
  let head := groups 8 true s
  if head.groups.length = 8 then some (head.groups, head.rest)
  else if head.isEmbedded then none
  else do
    let (_, s) ← char ':' head.rest
    let (_, s) ← char ':' s
    let tail := groups (7 - head.groups.length) true s
    let zeros := List.replicate (8 - head.groups.length - tail.groups.length) 0
    return (head.groups ++ zeros ++ tail.groups, tail.rest)

/-- Reads the scope of an address, zero if there is none. -/
def scope (s : List Char) : UInt32 × List Char :=
  let read : Option (UInt32 × List Char) := do
    let (_, s) ← char '%' s
    let (n, s) ← number 10 UInt32.size s
    return (n.toUInt32, s)
  read.getD (0, s)

/-- Reads the number of a socket with the colon in front of it. -/
def socketNumber : Reader UInt16 := fun s => do
  let (_, s) ← char ':' s
  let (n, s) ← number 10 UInt16.size s
  return (n.toUInt16, s)

/-- Reads an address of version 4 with the number of a socket. -/
def version4 : Reader SocketAddress := fun s => do
  let ((a, b, c, d), s) ← octets s
  let (socket, s) ← socketNumber s
  return (⟨.v4 a b c d, socket⟩, s)

/-- Reads an address of version 6 with the number of a socket. -/
def version6 : Reader SocketAddress := fun s => do
  let (_, s) ← char '[' s
  let (gs, s) ← eightGroups s
  let (scope, s) := scope s
  let (_, s) ← char ']' s
  let (socket, s) ← socketNumber s
  return (⟨.v6 gs scope, socket⟩, s)

/-- The address that a text stands for. -/
def parse? (text : String) : Option SocketAddress :=
  match version4 text.toList <|> version6 text.toList with
  | some (a, []) => some a
  | _ => none

/-! ## Writing -/

/-- A group in hexadecimal. -/
def groupText (g : UInt16) : String := String.ofList (Nat.toDigits 16 g.toNat)

/-- Groups with colons between them. -/
def groupsText (l : List UInt16) : String := ":".intercalate (l.map groupText)

/-- The number of zero groups in front of some groups. -/
def zeroRun (l : List UInt16) : Nat := (l.takeWhile (· = 0)).length

/-- Where the first of the longest runs of zero groups begins, and how long it is. -/
def longestRun (l : List UInt16) : Nat × Nat :=
  (List.range l.length).foldl
    (fun best i => if best.2 < zeroRun (l.drop i) then (i, zeroRun (l.drop i)) else best) (0, 0)

/-- Four octets with dots between them. -/
def octetsText (l : List Nat) : String := ".".intercalate (l.map toString)

/-- Eight groups as they are written: the last two as an address of version 4 if the others say
    that they are one, and otherwise with the longest run of two or more zero groups left out. -/
def eightGroupsText (l : List UInt16) : String :=
  match l with
  | [0, 0, 0, 0, 0, 0xFFFF, g, h] =>
    "::ffff:" ++ octetsText [g.toNat / 256, g.toNat % 256, h.toNat / 256, h.toNat % 256]
  | l =>
    let (start, length) := longestRun l
    if length < 2 then groupsText l
    else groupsText (l.take start) ++ "::" ++ groupsText (l.drop (start + length))

/-- An address as it is written. -/
def render (a : SocketAddress) : String :=
  let host := match a.host with
    | .v4 a b c d => octetsText [a.toNat, b.toNat, c.toNat, d.toNat]
    | .v6 gs scope =>
      "[" ++ eightGroupsText gs ++ (if scope = 0 then "" else "%" ++ toString scope.toNat) ++ "]"
  host ++ ":" ++ toString a.socket.toNat

/-- Whether the address is that of the host itself. -/
def isLoopback (a : SocketAddress) : Bool :=
  match a.host with
  | .v4 a _ _ _ => a = 127
  | .v6 gs _ => gs = [0, 0, 0, 0, 0, 0, 0, 1]

end SocketAddress

end Switchboard
