import Switchboard.Method.Basic

/-!
# Tables of methods

A table holds methods by name. Registering a method under a name that is taken replaces the
method there: the last registration counts. The methods are kept in the order of their names, which
is the order in which they are listed, so two tables with the same methods list them alike
however they came about.

A `Draft` collects registrations of which any may fail, and reports the first failure at the end.
-/

namespace Switchboard

/-- Methods by name, in the order of their names. -/
structure MethodTable (σ : Type) where
  methods : List (Method σ)

namespace MethodTable

variable {σ : Type}

/-- The table without methods. -/
def empty : MethodTable σ := ⟨[]⟩

instance : EmptyCollection (MethodTable σ) := ⟨empty⟩

instance : Inhabited (MethodTable σ) := ⟨empty⟩

/-- Puts a method in its place in a list in the order of names, in place of one of its name. -/
def insertMethod (m : Method σ) : List (Method σ) → List (Method σ)
  | [] => [m]
  | n :: rest =>
    if m.name < n.name then m :: n :: rest
    else if m.name = n.name then m :: rest
    else n :: insertMethod m rest

/-- Adds a method, in place of one of its name. -/
def insert (t : MethodTable σ) (m : Method σ) : MethodTable σ := ⟨insertMethod m t.methods⟩

/-- The method of a name. -/
def find? (t : MethodTable σ) (name : String) : Option (Method σ) :=
  t.methods.find? fun m => m.name = name

/-- Whether there is a method of a name. -/
def contains (t : MethodTable σ) (name : String) : Bool := (t.find? name).isSome

/-- The number of methods. -/
def size (t : MethodTable σ) : Nat := t.methods.length

/-- The names of the methods. -/
def names (t : MethodTable σ) : List String := t.methods.map Method.name

/-- The listing of all methods. -/
def describe (t : MethodTable σ) : Json := .arr (t.methods.map Method.describe)

/-- The table in one line, for diagnosis. -/
def summary (t : MethodTable σ) : String :=
  "Registry \x7b methods: " ++ Text.quotedList t.names ++ " \x7d"

/-- The method that is registered by the text of its signature. -/
def methodOf (text : String) (handler : Handler σ) (terms : MethodTerms) :
    Except Fault (Method σ) :=
  match Signature.parse text terms.parameterNames with
  | .ok s => .ok (Method.make s handler terms)
  | .error d => .error (.invalidSignature text d.message)

/-- What is noted when a method is added. -/
def registrationJournal (t : MethodTable σ) (m : Method σ) : Journal :=
  .notice (.registering m.name m.signature.render) [] ::
    if t.contains m.name then [.notice (.replaced m.name) []] else []

/-- Registers a method by the text of its signature; also says what is noted. -/
def register (t : MethodTable σ) (text : String) (handler : Handler σ) (terms : MethodTerms) :
    Except Fault (MethodTable σ × Journal) := do
  let m ← methodOf text handler terms
  .ok (t.insert m, t.registrationJournal m)

end MethodTable

/-- A request to register a method: the text of its signature, what carries out its calls, and what
    is asked for. -/
structure Registration (σ : Type) where
  text : String
  handler : Handler σ
  terms : MethodTerms

/-- Registrations of which the first failure is remembered; after it no more are carried out. The
    journal is what has been noted on the way. -/
structure Draft (σ : Type) where
  table : MethodTable σ := ∅
  fault? : Option Fault := none
  journal : Journal := []

namespace Draft

variable {σ : Type}

/-- Carries out a registration, unless one has failed. -/
def method (d : Draft σ) (r : Registration σ) : Draft σ :=
  match d.fault? with
  | some _ => d
  | none =>
    match d.table.register r.text r.handler r.terms with
    | .ok (table, j) => { d with table := table, journal := d.journal ++ j }
    | .error f => { d with fault? := some f }

/-- The table, or the first failure. -/
def build (d : Draft σ) : Except Fault (MethodTable σ) :=
  match d.fault? with
  | some f => .error f
  | none => .ok d.table

/-- Carries out registrations in order. -/
def ofList (l : List (Registration σ)) : Draft σ := l.foldl method {}

end Draft

end Switchboard
