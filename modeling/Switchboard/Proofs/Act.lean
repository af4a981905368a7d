import Mathlib.Tactic.Choose
import Switchboard.Journal.Basic

/-!
# What a computation does, part by part

An `Act` returns a value, an end state and a journal at once. Most
statements about services speak of one of the three, so this file names
them and says how each is made up from the steps of a computation.

The second half is about LOGGED STATES. A computation over states with a
log attached follows another one over the bare states if it does the same
and only ever appends to the log, as its handlers tell it. That relation is
closed under every way in which computations are put together, which is
what lets a whole service be watched.
-/

namespace Switchboard.Act

variable {σ ι α β : Type}

/-- What a computation returns. -/
def value (x : Act σ α) (s : σ) : α := (x s).1

/-- The state that a computation ends in. -/
def after (x : Act σ α) (s : σ) : σ := (x s).2.1

/-- What a computation leaves in the journal. -/
def journal (x : Act σ α) (s : σ) : Journal := (x s).2.2

/-! ## Values -/

@[simp] theorem value_pure (a : α) (s : σ) : (Pure.pure a : Act σ α).value s = a := rfl

@[simp] theorem value_bind (x : Act σ α) (f : α → Act σ β) (s : σ) :
    (x >>= f).value s = (f (x.value s)).value (x.after s) := rfl

@[simp] theorem value_inside (span : Span) (x : Act σ α) (s : σ) :
    (Act.inside span x).value s = x.value s := rfl

/-! ## End states -/

@[simp] theorem after_pure (a : α) (s : σ) : (Pure.pure a : Act σ α).after s = s := rfl

@[simp] theorem after_bind (x : Act σ α) (f : α → Act σ β) (s : σ) :
    (x >>= f).after s = (f (x.value s)).after (x.after s) := rfl

@[simp] theorem after_note (n : Notice) (s : σ) : (Act.note n : Act σ Unit).after s = s := rfl

@[simp] theorem after_inside (span : Span) (x : Act σ α) (s : σ) :
    (Act.inside span x).after s = x.after s := rfl

/-! ## Measurements -/

/-- What a computation measures, in order. -/
def measurements (x : Act σ α) (s : σ) : List Measurement := (x.journal s).measurements

@[simp] theorem measurements_pure (a : α) (s : σ) :
    (Pure.pure a : Act σ α).measurements s = [] := rfl

@[simp] theorem measurements_bind (x : Act σ α) (f : α → Act σ β) (s : σ) :
    (x >>= f).measurements s
      = x.measurements s ++ (f (x.value s)).measurements (x.after s) :=
  List.filterMap_append

@[simp] theorem measurements_note (n : Notice) (s : σ) :
    (Act.note n : Act σ Unit).measurements s = [] := rfl

/-- Spans are for notices; a measurement is the same inside and outside of them. -/
@[simp] theorem measurements_inside (span : Span) (x : Act σ α) (s : σ) :
    (Act.inside span x).measurements s = x.measurements s := by
  show List.filterMap _ (List.map _ (x.journal s)) = List.filterMap _ (x.journal s)
  rw [List.filterMap_map]
  refine congrArg (fun f => List.filterMap f (x.journal s)) (funext ?_)
  intro e
  cases e <;> rfl

/-- Two computations measure the same and leave the same state, whatever they return. -/
def SameTrace (x : Act σ α) (y : Act σ β) : Prop :=
  ∀ s, y.measurements s = x.measurements s ∧ y.after s = x.after s

theorem sameTrace_refl (x : Act σ α) : x.SameTrace x := fun _ => ⟨rfl, rfl⟩

theorem sameTrace_pure (a : α) (b : β) :
    (Pure.pure a : Act σ α).SameTrace (Pure.pure b : Act σ β) := fun _ => ⟨rfl, rfl⟩

/-- Computations with the same trace that go on with the same trace have the same trace. -/
theorem SameTrace.bind {γ δ : Type} {x : Act σ α} {y : Act σ β} {f : α → Act σ γ}
    {g : β → Act σ δ} (h : x.SameTrace y) (hf : ∀ a b, (f a).SameTrace (g b)) :
    (x >>= f).SameTrace (y >>= g) := by
  intro s
  obtain ⟨hx, hafter⟩ := h s
  obtain ⟨hrest, hlast⟩ := hf (x.value s) (y.value s) (x.after s)
  rw [measurements_bind, measurements_bind, after_bind, after_bind, hx, hafter]
  exact ⟨congrArg _ hrest, hlast⟩

theorem SameTrace.inside {x : Act σ α} {y : Act σ β} (h : x.SameTrace y) (span span' : Span) :
    (Act.inside span x).SameTrace (Act.inside span' y) := by
  intro s
  rw [measurements_inside, measurements_inside]
  exact h s

/-! ## Logged states -/

/-- `x'` does over logged states what `x` does over bare ones, and appends to
    the log a list that depends on the bare state alone. -/
def Follows (x' : Act (σ × List ι) α) (x : Act σ α) : Prop :=
  ∃ entries : σ → List ι, ∀ s log,
    x' (s, log) = (x.value s, (x.after s, log ++ entries s), x.journal s)

theorem follows_pure (a : α) :
    Follows (Pure.pure a : Act (σ × List ι) α) (Pure.pure a) := by
  refine ⟨fun _ => [], ?_⟩
  intro s log
  rw [List.append_nil]
  rfl

theorem follows_write (e : Event) :
    Follows (Act.write e : Act (σ × List ι) Unit) (Act.write e) := by
  refine ⟨fun _ => [], ?_⟩
  intro s log
  rw [List.append_nil]
  rfl

/-- What follows step by step follows as a whole. -/
theorem Follows.bind {x' : Act (σ × List ι) α} {x : Act σ α}
    {f' : α → Act (σ × List ι) β} {f : α → Act σ β}
    (hx : Follows x' x) (hf : ∀ a, Follows (f' a) (f a)) :
    Follows (x' >>= f') (x >>= f) := by
  obtain ⟨ex, hx⟩ := hx
  choose ef hf using hf
  -- what the second part logs depends on the value and the state that the first part left
  refine ⟨fun s => ex s ++ ef (x.value s) (x.after s), ?_⟩
  intro s log
  show Act.bind x' f' (s, log) = _
  unfold Act.bind
  rw [hx]
  dsimp only
  rw [hf, List.append_assoc]
  rfl

theorem Follows.inside {x' : Act (σ × List ι) α} {x : Act σ α} (span : Span)
    (hx : Follows x' x) : Follows (Act.inside span x') (Act.inside span x) := by
  obtain ⟨ex, hx⟩ := hx
  refine ⟨ex, ?_⟩
  intro s log
  show (let (a, t, j) := x' (s, log); (a, t, j.inside span)) = _
  rw [hx]
  rfl

/-- Following computations end in the same bare state. -/
theorem Follows.after_eq {x' : Act (σ × List ι) α} {x : Act σ α} (h : Follows x' x)
    (s : σ) (log : List ι) : (x'.after (s, log)).1 = x.after s := by
  obtain ⟨ex, hx⟩ := h
  exact congrArg (fun r => r.2.1.1) (hx s log)

/-- What is appended to a log does not depend on the log. -/
theorem Follows.log_eq {x' : Act (σ × List ι) α} {x : Act σ α} (h : Follows x' x)
    (s : σ) (log : List ι) :
    (x'.after (s, log)).2 = log ++ (x'.after (s, [])).2 := by
  obtain ⟨ex, hx⟩ := h
  show (x' (s, log)).2.1.2 = log ++ (x' (s, [])).2.1.2
  rw [hx, hx]
  rfl

end Switchboard.Act
