import Switchboard.Journal.Basic
import Switchboard.Signature.Parser

/-!
# Filters of notices

A filter decides which notices are written. It is a list of rules, each of which says what is
important enough to be written, either from everywhere or from one part of the service. Of the rules
that a source falls under the closest counts; what falls under none is not written. A notice is
written with those of its spans that the filter lets through as well.
-/

namespace Switchboard

/-- From which level on notices are let through; `none` lets none through. -/
abbrev Threshold := Option Level

/-- A rule of a filter: the part of the service that it is for, where the empty name stands for
    everywhere, and what is let through from there. -/
structure Rule where
  part : String
  threshold : Threshold
deriving DecidableEq, Repr

/-- Which notices are let through: rules in the order in which they were made. -/
structure Filter where
  rules : List Rule
deriving DecidableEq, Repr

namespace Filter

/-! ## Filters as texts -/

/-- The words for thresholds, each in any case, and the digits that may stand for them. -/
def threshold? (word : List Char) : Option Threshold :=
  match String.ofList (word.map Char.toLower) with
  | "trace" | "5" => some (some .trace)
  | "debug" | "4" => some (some .debug)
  | "info" | "3" => some (some .info)
  | "warn" | "2" => some (some .warn)
  | "error" | "1" => some (some .error)
  | "off" | "0" => some none
  | _ => none

/-- Whether the name of a part may begin with a character. -/
def isPartStart (c : Char) : Bool := c.isAlphanum || c = '_' || c = ':' || c = '-'

/-- The rule of one field: a threshold for everywhere, a part and its threshold with `=` between, or
    a part alone, from which everything is let through. -/
def rule? (field : List Char) : Option Rule :=
  if !(field.take 1).all isPartStart then none
  else
    match Signature.splitFirst? '=' field with
    | some (part, []) => some ⟨String.ofList part, some .trace⟩
    | some (part, word) => (threshold? word).map fun t => ⟨String.ofList part, t⟩
    | none =>
      match threshold? field with
      | some t => some ⟨"", t⟩
      | none => some ⟨String.ofList field, some .trace⟩

/-- The filter that a text stands for: rules with commas between. A text without rules lets errors
    through from everywhere. -/
def ofText? (text : String) : Option Filter :=
  let fields := (Signature.fields ',' text.toList).filter fun f => !f.isEmpty
  if fields.isEmpty then some ⟨[⟨"", some .error⟩]⟩
  else (fields.mapM rule?).map fun rules => ⟨rules⟩

/-! ## What a filter lets through -/

/-- Whether a source is a part of the service or belongs to one. -/
def belongsTo (part source : String) : Bool := part.toList.isPrefixOf source.toList

/-- The rule that is closest to a source: of those that it falls under the one for the longest name,
    and of those for one name the last. -/
def closest (rules : List Rule) (source : String) : Option Rule :=
  (rules.filter fun r => belongsTo r.part source).foldl
    (fun best r =>
      match best with
      | some q => if r.part.length < q.part.length then some q else some r
      | none => some r)
    none

/-- The threshold for notices from a source. -/
def threshold (f : Filter) (source : String) : Threshold :=
  ((closest f.rules source).map (·.threshold)).getD none

/-- Whether what has a level and comes from a source is let through. -/
def passes (f : Filter) (source : String) (level : Level) : Bool :=
  match f.threshold source with
  | some t => t.rank ≤ level.rank
  | none => false

end Filter

/-- A notice as it is written, with the spans that it was made in and that are let through
    themselves. -/
structure Line where
  notice : Notice
  spans : List Span
deriving DecidableEq

/-- The lines that a filter makes of a journal. Spans are of the level of information. -/
def Journal.lines (f : Filter) (j : Journal) : List Line :=
  j.filterMap fun
    | .notice n spans =>
      if f.passes n.source n.level then
        some ⟨n, spans.filter fun s => f.passes s.source .info⟩
      else none
    | .measurement _ => none

end Switchboard
