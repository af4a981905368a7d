import Mathlib.Data.List.Induction

/-!
# Runs

A system has actions, each of which is possible in a state or not, and a run is a
list of actions of which each is possible in its turn. What every step preserves a
run preserves (`Runs.preserved`). Where a state is to be told by what has happened,
it is enough to say what each step adds to the history (`Runs.traced`).
-/

namespace Switchboard

variable {σ α : Type}

/-- Actions are carried out one after the other, each if it is possible in its turn. -/
structure Runs (step? : σ → α → Option σ) (run? : List α → σ → Option σ) : Prop where
  nil : ∀ s, run? [] s = some s
  cons : ∀ a rest s, run? (a :: rest) s = (step? s a).bind (run? rest)

namespace Runs

variable {step? : σ → α → Option σ} {run? : List α → σ → Option σ} {actions : List α} {s t : σ}

/-- To run two sequences of actions is to run the second where the first has led. -/
theorem append (h : Runs step? run?) (before after : List α) (s : σ) :
    run? (before ++ after) s = (run? before s).bind (run? after) := by
  induction before generalizing s with
  | nil =>
      rw [h.nil]
      rfl
  | cons a rest ih =>
      rw [List.cons_append, h.cons, h.cons, Option.bind_assoc]
      exact congrArg _ (funext ih)

/-- A run can be stopped in front of each of its actions. -/
theorem exists_of_append_cons (h : Runs step? run?) {before after : List α} {a : α}
    (hrun : run? (before ++ a :: after) s = some t) :
    ∃ u v, run? before s = some u ∧ step? u a = some v ∧ run? after v = some t := by
  rw [h.append] at hrun
  obtain ⟨u, hu, hrest⟩ := Option.bind_eq_some_iff.mp hrun
  rw [h.cons] at hrest
  obtain ⟨v, hv, hafter⟩ := Option.bind_eq_some_iff.mp hrest
  exact ⟨u, v, hu, hv, hafter⟩

/-- What the steps of a run preserve holds at its end if it holds at its beginning. -/
theorem preserved (h : Runs step? run?) {P : σ → Prop}
    (hstep : ∀ a ∈ actions, ∀ {s t}, step? s a = some t → P s → P t)
    (hrun : run? actions s = some t) (hs : P s) : P t := by
  induction actions generalizing s with
  | nil =>
      rw [h.nil] at hrun
      obtain rfl := Option.some.inj hrun
      exact hs
  | cons a rest ih =>
      rw [h.cons] at hrun
      obtain ⟨u, hu, hrest⟩ := Option.bind_eq_some_iff.mp hrun
      obtain ⟨hfirst, hlater⟩ := List.forall_mem_cons.mp hstep
      exact ih hlater hrest (hfirst hu hs)

/-- What holds at the beginning and is kept when an action is added to the history holds of all
    that has happened and the state at the end. -/
theorem traced (h : Runs step? run?) {P : List α → σ → Prop} (hs : P [] s)
    (hstep : ∀ {before a t u}, step? t a = some u → P before t → P (before ++ [a]) u)
    (hrun : run? actions s = some t) : P actions t := by
  induction actions using List.reverseRecOn generalizing t with
  | nil =>
      rw [h.nil] at hrun
      obtain rfl := Option.some.inj hrun
      exact hs
  | append_singleton before a ih =>
      obtain ⟨u, v, hu, hv, hlast⟩ := h.exists_of_append_cons hrun
      rw [h.nil] at hlast
      obtain rfl := Option.some.inj hlast
      exact hstep hv (ih hu)

end Runs

end Switchboard
