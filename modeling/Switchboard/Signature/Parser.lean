import Switchboard.Signature.Basic
import Switchboard.Signature.AutoName

/-!
# Reading signatures

A signature is written as a name, an optional parameter list in parentheses and an optional
result type behind an arrow, with blanks allowed between all parts:

    NAME
    NAME ( LIST )
    NAME ( LIST ) -> TYPE

Each item of the list is a type alone or a name and a type with an equals sign between them. An
item with a name may not be followed by one without. An item without a name takes the name that
the caller suggests for its position, and beyond the suggestions a name of the automatic
sequence.

`Signature.Defect` lists what can be wrong; of several defects the one that comes first in the
text is reported, but everything inside the parentheses comes before everything behind them.
-/

namespace Switchboard.Signature

/-- What is wrong with the text of a signature. The name is missing; the parameter list is not
    closed; an item is blank, begins with what is no identifier, lacks a name behind one that has
    it, or repeats a name; a type is invalid as no identifier, or unknown as the name of no kind;
    nothing follows the arrow; or something other than an arrow follows the name or the list. -/
inductive Defect where
  | missingName
  | unclosedParameters
  | emptyParameter (position : Nat)
  | invalidParameterName (item : String)
  | positionalAfterNamed (item : String)
  | invalidParameterType (token : String)
  | unknownParameterType (token : String)
  | duplicateParameter (name : String)
  | missingReturnType
  | invalidReturnType (token : String)
  | unknownReturnType (token : String)
  | unexpectedInput (rest : String)
  | unknownType (token : String)
deriving DecidableEq, Repr

/-- The wording of a defect. -/
def Defect.message : Defect → String
  | .missingName => "missing method name"
  | .unclosedParameters => "unclosed parameter list"
  | .emptyParameter i => "empty parameter at position " ++ toString i
  | .invalidParameterName item => "invalid parameter name in `" ++ item ++ "`"
  | .positionalAfterNamed item =>
    "positional parameter `" ++ item ++ "` follows a named parameter"
  | .invalidParameterType token => "invalid parameter type `" ++ token ++ "`"
  | .unknownParameterType token => "unknown parameter type `" ++ token ++ "`"
  | .duplicateParameter name => "duplicate parameter `" ++ name ++ "`"
  | .missingReturnType => "missing return type after `->`"
  | .invalidReturnType token => "invalid return type `" ++ token ++ "`"
  | .unknownReturnType token => "unknown return type `" ++ token ++ "`"
  | .unexpectedInput rest => "unexpected input `" ++ rest ++ "`"
  | .unknownType token => "unknown type `" ++ token ++ "`"

/-! ## Characters and fields -/

/-- Whether a character may stand in the name of a method. -/
def isNameChar (c : Char) : Bool := c.isAlphanum || c = '.' || c = '-' || c = '_'

/-- Whether a character may stand in an identifier. -/
def isIdentChar (c : Char) : Bool := c.isAlphanum || c = '_'

/-- Whether a text is an identifier: letters, digits and underscores, and at least one. -/
def isIdent (s : List Char) : Bool := !s.isEmpty && s.all isIdentChar

/-- The two parts of a text around the first occurrence of a character, if it occurs. -/
def splitFirst? (sep : Char) : List Char → Option (List Char × List Char)
  | [] => none
  | c :: rest =>
    if c = sep then some ([], rest)
    else (splitFirst? sep rest).map fun (front, back) => (c :: front, back)

/-- The parts of a text between the occurrences of a character: one more than there are
    occurrences. -/
def fields (sep : Char) : List Char → List (List Char)
  | [] => [[]]
  | c :: rest =>
    if c = sep then [] :: fields sep rest
    else
      match fields sep rest with
      | [] => [[c]]
      | field :: more => (c :: field) :: more

/-! ## Parts of a signature -/

/-- The kind that the type token of a parameter stands for. -/
def parameterKind (token : List Char) : Except Defect Kind :=
  if isIdent token then
    match Kind.ofWord? token with
    | some k => .ok k
    | none => .error (.unknownParameterType (String.ofList token))
  else .error (.invalidParameterType (String.ofList token))

/-- The name of a parameter that is declared by its type alone. -/
def suggestedName (suggestions : List String) (position : Nat) : String :=
  suggestions[position]?.getD (autoName position)

/-- Reads one item of a parameter list, without blanks around it; also says whether it has a
    name of its own. -/
def parameterOfItem (suggestions : List String) (position : Nat) (afterNamed : Bool)
    (item : List Char) : Except Defect (Parameter × Bool) :=
  if item.isEmpty then .error (.emptyParameter position)
  else
    match splitFirst? '=' item with
    | some (name, type) => do
      let name := Text.trim name
      if isIdent name then
        let kind ← parameterKind (Text.trim type)
        .ok (⟨String.ofList name, kind⟩, true)
      else .error (.invalidParameterName (String.ofList item))
    | none =>
      if afterNamed then .error (.positionalAfterNamed (String.ofList item))
      else do
        let kind ← parameterKind item
        .ok (⟨suggestedName suggestions position, kind⟩, false)

/-- Reads the items of a parameter list from a position on, behind the parameters already
    read. -/
def parametersOfItems (suggestions : List String) (position : Nat) (afterNamed : Bool)
    (read : List Parameter) : List (List Char) → Except Defect (List Parameter)
  | [] => .ok read
  | item :: rest => do
    let (p, named) ← parameterOfItem suggestions position afterNamed (Text.trim item)
    if read.any fun q => q.name = p.name then .error (.duplicateParameter p.name)
    else parametersOfItems suggestions (position + 1) named (read ++ [p]) rest

/-- Reads what stands between the parentheses. -/
def parametersOfList (suggestions : List String) (list : List Char) :
    Except Defect (List Parameter) :=
  if (Text.trim list).isEmpty then .ok []
  else parametersOfItems suggestions 0 false [] (fields ',' list)

/-- Reads what follows the parameter list or the name: nothing, or an arrow and a type. -/
def returnsOfRest : List Char → Except Defect Kind
  | [] => .ok .any
  | '-' :: '>' :: rest =>
    let token := Text.trim rest
    if token.isEmpty then .error .missingReturnType
    else if isIdent token then
      match Kind.ofWord? token with
      | some k => .ok k
      | none => .error (.unknownReturnType (String.ofList token))
    else .error (.invalidReturnType (String.ofList token))
  | rest => .error (.unexpectedInput (String.ofList rest))

/-- Reads a signature, with names suggested for the parameters that are declared by their type
    alone. -/
def parse (text : String) (suggestions : List String) : Except Defect Signature := do
  let text := Text.trim text.toList
  let name := text.takeWhile isNameChar
  if name.isEmpty then .error .missingName
  else
    let rest := Text.trimStart (text.dropWhile isNameChar)
    match rest with
    | '(' :: inner =>
      match splitFirst? ')' inner with
      | none => .error .unclosedParameters
      | some (list, rest) => do
        let parameters ← parametersOfList suggestions list
        let returns ← returnsOfRest (Text.trimStart rest)
        .ok ⟨String.ofList name, some parameters, returns⟩
    | rest => do
      let returns ← returnsOfRest rest
      .ok ⟨String.ofList name, none, returns⟩

end Switchboard.Signature
