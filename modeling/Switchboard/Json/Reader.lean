import Switchboard.Json.Token

/-!
# Reading JSON

Tokens are read one at a time by a machine that keeps the open containers on a stack, the
innermost first, and knows what may come next. At most 127 containers are open at once; a text
that opens one more is refused, as is one that goes on after its value.

Members of an object are put in their place as they come (`Members.insert`): a read object is
sorted by key, and of several members of one key the last one stays.
-/

namespace Switchboard

/-- A container that has been opened and not yet closed: an array with the items so far in reverse,
    an object with the members so far, or one whose next value belongs to a key. -/
inductive Unfinished where
  | array (items : List Json)
  | object (members : Members)
  | member (members : Members) (key : String)

/-- What a reader can take next. Nothing is awaited once the value is complete. -/
inductive Awaiting where
  | value
  | itemOrEnd
  | keyOrEnd
  | key
  | colon (key : String)
  | separator
  | nothing (v : Json)

/-- A reader between two tokens: the open containers, the innermost first, and what may come
    next. -/
structure Reader where
  stack : List Unfinished
  awaiting : Awaiting

namespace Reader

/-- The most containers that may be open at once. -/
def maxDepth : Nat := 127

/-- The reader in front of a text. -/
def start : Reader := ⟨[], .value⟩

/-- Hands a complete value to the innermost container, or ends the text with it. -/
def give (v : Json) : List Unfinished → Option Reader
  | [] => some ⟨[], .nothing v⟩
  | .array items :: stack => some ⟨.array (v :: items) :: stack, .separator⟩
  | .member members key :: stack => some ⟨.object (members.insert key v) :: stack, .separator⟩
  | .object _ :: _ => none

/-- Opens a container inside the ones that are open. -/
def enter (frame : Unfinished) (next : Awaiting) (stack : List Unfinished) : Option Reader :=
  if stack.length < maxDepth then some ⟨frame :: stack, next⟩ else none

/-- Takes a token that begins a value. -/
def beginValue (stack : List Unfinished) : Token → Option Reader
  | .null => give .null stack
  | .bool b => give (.bool b) stack
  | .num n => give (.num n) stack
  | .str s => give (.str s) stack
  | .openArray => enter (.array []) .itemOrEnd stack
  | .openObject => enter (.object []) .keyOrEnd stack
  | _ => none

/-- Takes a token that ends the innermost container. -/
def close : List Unfinished → Token → Option Reader
  | .array items :: stack, .closeArray => give (.arr items.reverse) stack
  | .object members :: stack, .closeObject => give (.obj members) stack
  | _, _ => none

/-- Takes one token. -/
def step (r : Reader) (t : Token) : Option Reader :=
  match r.awaiting, t with
  | .value, t => beginValue r.stack t
  | .itemOrEnd, .closeArray => close r.stack .closeArray
  | .itemOrEnd, t => beginValue r.stack t
  | .keyOrEnd, .closeObject => close r.stack .closeObject
  | .keyOrEnd, .str k => some ⟨r.stack, .colon k⟩
  | .key, .str k => some ⟨r.stack, .colon k⟩
  | .colon k, .colon =>
    match r.stack with
    | .object members :: stack => some ⟨.member members k :: stack, .value⟩
    | _ => none
  | .separator, .comma =>
    match r.stack with
    | .array _ :: _ => some ⟨r.stack, .value⟩
    | .object _ :: _ => some ⟨r.stack, .key⟩
    | _ => none
  | .separator, t => close r.stack t
  | _, _ => none

/-- Takes a sequence of tokens. -/
def run : Reader → List Token → Option Reader
  | r, [] => some r
  | r, t :: rest =>
    match r.step t with
    | none => none
    | some r => run r rest

/-- The value that has been read, if the text can end here. -/
def result? (r : Reader) : Option Json :=
  match r.awaiting with
  | .nothing v => some v
  | _ => none

/-- Reading two sequences of tokens one after the other is reading them as one. -/
theorem run_append (r : Reader) (as bs : List Token) :
    r.run (as ++ bs) = (r.run as).bind fun r => r.run bs := by
  induction as generalizing r with
  | nil => rfl
  | cons t as ih =>
    simp only [List.cons_append, run]
    cases r.step t with
    | none => rfl
    | some r => exact ih r

end Reader

namespace Json

/-- The value that a sequence of tokens is the text of. -/
def ofTokens? (ts : List Token) : Option Json := (Reader.start.run ts).bind Reader.result?

/-- The value that a text holds, or `none` if it is no JSON text. -/
def parse? (text : String) : Option Json := (lex text.toList).bind ofTokens?

/-- The value that bytes hold, or `none` if they are no JSON text in UTF-8. -/
def ofBytes? (bytes : ByteArray) : Option Json := (String.fromUTF8? bytes).bind parse?

end Json

end Switchboard
