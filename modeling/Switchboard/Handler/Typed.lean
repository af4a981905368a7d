import Switchboard.Handler.Basic

/-!
# Typed handlers

A typed handler states the shape of its parameters and is given them in the normal form of that
shape. Parameters by name are first read as they are. When the names of the method's parameters
are known and that fails, the values are laid out in the order of the names, with `null` for those
that are missing, and read as if they had been given by position; the failure of that second
attempt is the one that counts.
-/

namespace Switchboard

/-- The values of named parameters in the order of some names, `null` where one is missing. -/
def layOut (names : List String) (members : Members) : List Json :=
  names.map fun name => (members.lookup name).getD .null

/-- Reads parameters by a shape, with the names of the method's parameters as far as they are
    known. -/
def bindParams (shape : Shape) (names : List String) : Params → Except Mismatch Json
  | .positional items => shape.read (.arr items)
  | .named members =>
    if names.isEmpty then shape.read (.obj members)
    else
      match shape.read (.obj members) with
      | .ok v => .ok v
      | .error _ => shape.read (.arr (layOut names members))

/-- Named parameters that can be read as they are, are. -/
theorem bindParams_of_read {shape : Shape} {members : Members} {v : Json}
    (hread : shape.read (.obj members) = .ok v) (names : List String) :
    bindParams shape names (.named members) = .ok v := by
  unfold bindParams
  simp only [hread, ite_self]

/-- Named parameters that cannot are laid out, if there are names to do it by. -/
theorem bindParams_of_mismatch {shape : Shape} {members : Members} {m : Mismatch}
    (hread : shape.read (.obj members) = .error m) {names : List String} (hnames : names ≠ []) :
    bindParams shape names (.named members) = shape.read (.arr (layOut names members)) := by
  have hsome : names.isEmpty = false := List.isEmpty_eq_false_iff.mpr hnames
  unfold bindParams
  dsimp only
  rw [hsome, hread]
  rfl

/-- The handler that reads its parameters by a shape. Parameters that do not have it are the
    caller's fault. -/
def Handler.typed {σ : Type} (shape : Shape) (run : Context → Json → σ → Outcome × σ) :
    Handler σ := fun ctx params s =>
  match bindParams shape ctx.parameterNames params with
  | .ok v => run ctx v s
  | .error m => (.fault (.invalidParams m.message), s)

section

variable {σ : Type} {shape : Shape} {ctx : Context} {params : Params}
  (run : Context → Json → σ → Outcome × σ)

/-- A handler runs on what its parameters bind to. -/
theorem Handler.typed_of_bound {v : Json}
    (h : bindParams shape ctx.parameterNames params = .ok v) (s : σ) :
    Handler.typed shape run ctx params s = run ctx v s := by
  unfold Handler.typed
  rw [h]

/-- Parameters that do not bind are the caller's fault, and the handler does not run. -/
theorem Handler.typed_of_mismatch {m : Mismatch}
    (h : bindParams shape ctx.parameterNames params = .error m) (s : σ) :
    Handler.typed shape run ctx params s = (.fault (.invalidParams m.message), s) := by
  unfold Handler.typed
  rw [h]

end

end Switchboard
