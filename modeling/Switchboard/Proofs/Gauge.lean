import Switchboard.Proofs.Groundwork
import Switchboard.Proofs.Runs
import Switchboard.Socket.Gauge

/-!
# What the count of open connections tells

The counter itself is always right: it is the number of connections that are
counted and not yet counted off, whatever the order of the steps
(`Traced.count`). What is recorded of it need not be. A connection changes the
counter in one step and records the count that it has seen in another, and the
counter may move in between. How far it has moved since a connection changed it
is the `drift` of that connection, and when no connection has anything to
record, the last count on record is off by the drift of the one that recorded
last.
-/

namespace Switchboard

/-! ## Stages -/

namespace Stage

/-- The count that a connection has seen and is to record. -/
def seen? : Stage → Option Int
  | .counted n | .discounted n => some n
  | .arriving | .refused | .upgraded | .serving | .gone => none

theorem isSome_seen? (s : Stage) : s.seen?.isSome = s.isPending := by cases s <;> rfl

/-- Whether the handshake of a connection has succeeded and its end has not been counted. -/
def isUp : Stage → Bool
  | .upgraded | .counted _ | .serving => true
  | .arriving | .refused | .discounted _ | .gone => false

/-- Whether a connection is still to be counted. -/
def isUncounted : Stage → Bool
  | .upgraded => true
  | .arriving | .refused | .counted _ | .serving | .discounted _ | .gone => false

/-- Whether a connection has come to its end. -/
def isOver : Stage → Bool
  | .refused | .gone => true
  | .arriving | .upgraded | .counted _ | .serving | .discounted _ => false

end Stage

namespace Gauge

/-! ## Actions -/

namespace Action

/-- By how much an action moves the counter. -/
def change : Action → Int
  | .count _ => 1
  | .discount _ => -1
  | .arrive | .refuse _ | .upgrade _ | .record _ => 0

/-- Whether an action is the one by which a connection moves the counter. -/
def isChangeOf (i : Nat) : Action → Bool
  | .count j | .discount j => j = i
  | .arrive | .refuse _ | .upgrade _ | .record _ => false

/-- The connection that records a count by an action. -/
def recorder? : Action → Option Nat
  | .record i => some i
  | .arrive | .refuse _ | .upgrade _ | .count _ | .discount _ => none

end Action

/-- How far the counter has moved since a connection moved it last. -/
def drift (i : Nat) (actions : List Action) : Int :=
  actions.foldl (fun d a => if a.isChangeOf i then 0 else d + a.change) 0

/-- The connection that has recorded a count last. -/
def lastRecorder? (actions : List Action) : Option Nat :=
  (actions.filterMap Action.recorder?).getLast?

/-- The drift starts again when the connection moves the counter itself, and otherwise goes on. -/
theorem drift_concat (i : Nat) (actions : List Action) (a : Action) :
    drift i (actions ++ [a]) = if a.isChangeOf i then 0 else drift i actions + a.change :=
  List.foldl_append

theorem lastRecorder?_of_none {a : Action} (h : a.recorder? = none) (actions : List Action) :
    lastRecorder? (actions ++ [a]) = lastRecorder? actions := by
  rw [lastRecorder?, List.filterMap_append, List.filterMap_cons_none h, List.filterMap_nil,
    List.append_nil, lastRecorder?]

theorem lastRecorder?_of_some {a : Action} {i : Nat} (h : a.recorder? = some i)
    (actions : List Action) : lastRecorder? (actions ++ [a]) = some i := by
  rw [lastRecorder?, List.filterMap_append, List.filterMap_cons_some h, List.filterMap_nil,
    List.getLast?_concat]

/-! ## Steps -/

/-- Everything that can happen to the connections. -/
inductive Step (g : Gauge) : Action → Gauge → Prop where
  | arrived : Step g .arrive { g with stages := g.stages ++ [.arriving] }
  | refused {i : Nat} (h : g.stages[i]? = some .arriving) :
      Step g (.refuse i) (g.setStage i .refused)
  | upgraded {i : Nat} (h : g.stages[i]? = some .arriving) :
      Step g (.upgrade i) (g.setStage i .upgraded)
  | counted {i : Nat} (h : g.stages[i]? = some .upgraded) :
      Step g (.count i) { g.setStage i (.counted (g.count + 1)) with count := g.count + 1 }
  | opened {i : Nat} {n : Int} (h : g.stages[i]? = some (.counted n)) :
      Step g (.record i) { g.setStage i .serving with recorded := g.recorded ++ [n] }
  | discounted {i : Nat} (h : g.stages[i]? = some .serving) :
      Step g (.discount i) { g.setStage i (.discounted (g.count - 1)) with count := g.count - 1 }
  | closed {i : Nat} {n : Int} (h : g.stages[i]? = some (.discounted n)) :
      Step g (.record i) { g.setStage i .gone with recorded := g.recorded ++ [n] }

variable {g g' : Gauge} {a : Action} {actions : List Action}

/-- A step that is taken is one of those that can happen. -/
theorem step_of_step? (h : g.step? a = some g') : Step g a g' := by
  cases a with
  | arrive =>
      obtain rfl := Option.some.inj h
      exact .arrived
  | refuse i =>
      simp only [step?] at h
      split at h
      case h_1 hi =>
        obtain rfl := Option.some.inj h
        exact .refused hi
      case h_2 => exact nomatch h
  | upgrade i =>
      simp only [step?] at h
      split at h
      case h_1 hi =>
        obtain rfl := Option.some.inj h
        exact .upgraded hi
      case h_2 => exact nomatch h
  | count i =>
      simp only [step?] at h
      split at h
      case h_1 hi =>
        obtain rfl := Option.some.inj h
        exact .counted hi
      case h_2 => exact nomatch h
  | record i =>
      simp only [step?] at h
      split at h
      case h_1 n hi =>
        obtain rfl := Option.some.inj h
        exact .opened hi
      case h_2 n hi =>
        obtain rfl := Option.some.inj h
        exact .closed hi
      case h_3 => exact nomatch h
  | discount i =>
      simp only [step?] at h
      split at h
      case h_1 hi =>
        obtain rfl := Option.some.inj h
        exact .discounted hi
      case h_2 => exact nomatch h

theorem runs : Runs step? run? := ⟨fun _ => rfl, fun _ _ _ => rfl⟩

/-! ## Counting stages -/

/-- How many connections are at a stage of some sort. -/
def tally (g : Gauge) (p : Stage → Bool) : Nat := g.stages.countP p

theorem openCount_eq (g : Gauge) : g.openCount = g.tally Stage.isOpen :=
  List.countP_eq_length_filter.symm

/-- A connection that goes on is no longer counted where it was. -/
theorem tally_setStage {i : Nat} {s : Stage} (h : g.stages[i]? = some s) (t : Stage)
    (p : Stage → Bool) :
    (g.setStage i t).tally p + (p s).toNat = g.tally p + (p t).toNat := by
  obtain ⟨front, back, hbefore, hafter⟩ := exists_append_set h t
  have hp (s : Stage) : (if p s = true then 1 else 0) = (p s).toNat := by cases p s <;> rfl
  show (g.stages.set i t).countP p + _ = g.stages.countP p + _
  rw [hbefore, ← hbefore, hafter, hbefore]
  simp only [List.countP_append, List.countP_cons, hp]
  omega

/-- Those that are up are those that are counted and those that are still to be. -/
theorem tally_isUp (g : Gauge) :
    g.tally Stage.isUp = g.tally Stage.isOpen + g.tally Stage.isUncounted := by
  unfold tally
  induction g.stages with
  | nil => rfl
  | cons s rest ih =>
      simp only [List.countP_cons, ih]
      -- a connection that is up is of one of the two sorts
      cases s <;> simp [Stage.isUp, Stage.isOpen, Stage.isUncounted] <;> omega

theorem tally_eq_zero {p : Stage → Bool} (h : ∀ s ∈ g.stages, p s = false) : g.tally p = 0 := by
  refine List.countP_eq_zero.mpr ?_
  intro s hs
  rw [h s hs]
  exact Bool.false_ne_true

/-! ## What connections know -/

/-- What a connection knows of the counter. If it has a count to record, this is the counter as it
    was before it drifted away; if it has recorded a count last of all, so is the last one on
    record; and as long as nothing is on record, every connection that is counted has a count to
    record. -/
structure Knows (actions : List Action) (count : Int) (last? : Option Int) (i : Nat)
    (s : Stage) : Prop where
  pending : ∀ n, s.seen? = some n → n + drift i actions = count
  last : lastRecorder? actions = some i → s.seen? = none →
    ∃ n, last? = some n ∧ n + drift i actions = count
  silent : lastRecorder? actions = none → s.isOpen = true → s.isPending = true

section Knows

variable {count : Int} {last? : Option Int} {i : Nat} {s : Stage}

/-- What a connection knows depends on its stage only by what it is to record and whether it is
    counted. -/
theorem Knows.congr {t : Stage} (h : Knows actions count last? i s) (hseen : t.seen? = s.seen?)
    (hopen : t.isOpen = s.isOpen) : Knows actions count last? i t := by
  refine ⟨?_, ?_, ?_⟩
  · rw [hseen]
    exact h.pending
  · rw [hseen]
    exact h.last
  · rw [hopen, ← t.isSome_seen?, hseen, s.isSome_seen?]
    exact h.silent

/-- The counter drifts away from the others when a connection moves it. -/
theorem Knows.drifted (h : Knows actions count last? i s) (hi : a.isChangeOf i = false)
    (ha : a.recorder? = none) : Knows (actions ++ [a]) (count + a.change) last? i s := by
  have hdrift : drift i (actions ++ [a]) = drift i actions + a.change := by
    rw [drift_concat, hi]
    exact if_neg Bool.false_ne_true
  refine ⟨?_, ?_, ?_⟩
  · intro n hn
    rw [hdrift, ← h.pending n hn, Int.add_assoc]
  · rw [lastRecorder?_of_none ha]
    intro hlast hs
    obtain ⟨n, hn, hcount⟩ := h.last hlast hs
    exact ⟨n, hn, by rw [hdrift, ← hcount, Int.add_assoc]⟩
  · rw [lastRecorder?_of_none ha]
    exact h.silent

/-- An action that leaves the counter alone and records nothing changes nothing. -/
theorem Knows.unchanged (h : Knows actions count last? i s) (hi : a.isChangeOf i = false)
    (hchange : a.change = 0) (ha : a.recorder? = none) :
    Knows (actions ++ [a]) count last? i s := by
  have hdrifted := h.drifted hi ha
  rwa [hchange, Int.add_zero] at hdrifted

/-- A connection that moves the counter sees it as it is then. -/
theorem Knows.of_change (hi : a.isChangeOf i = true)
    (hs : s.seen? = some count) : Knows (actions ++ [a]) count last? i s where
  pending := by
    intro n hn
    obtain rfl := Option.some.inj (hs.symm.trans hn)
    rw [drift_concat, if_pos hi, Int.add_zero]
  last := by
    intro _ hnone
    exact nomatch hs.symm.trans hnone
  silent := by
    intro _ _
    rw [← s.isSome_seen?, hs]
    rfl

/-- When another connection records a count, that one has recorded last. -/
theorem Knows.of_record (h : Knows actions count last? i s) {j : Nat} (hj : i ≠ j)
    (last'? : Option Int) : Knows (actions ++ [.record j]) count last'? i s := by
  have hlast := lastRecorder?_of_some (show Action.recorder? (.record j) = some j from rfl) actions
  refine ⟨?_, ?_, ?_⟩
  · intro n hn
    rw [drift_concat]
    exact (congrArg (n + ·) (Int.add_zero _)).trans (h.pending n hn)
  · intro hi _
    exact absurd (Option.some.inj (hi.symm.trans hlast)) hj
  · intro hnone
    exact nomatch hlast.symm.trans hnone

/-- A connection that records the count that it has seen has recorded last. -/
theorem Knows.recorded {n : Int} (h : Knows actions count last? i s) (hn : s.seen? = some n)
    {t : Stage} (ht : t.seen? = none) :
    Knows (actions ++ [.record i]) count (some n) i t where
  pending := by
    intro m hm
    exact nomatch ht.symm.trans hm
  last := by
    intro _ _
    refine ⟨n, rfl, ?_⟩
    rw [drift_concat]
    exact (congrArg (n + ·) (Int.add_zero _)).trans (h.pending n hn)
  silent := by
    intro hnone
    have hlast := lastRecorder?_of_some (show Action.recorder? (.record i) = some i from rfl)
      actions
    exact nomatch hlast.symm.trans hnone

end Knows

/-! ## The invariant -/

/-- What the counter and the records have to do with what has happened. -/
structure Traced (actions : List Action) (g : Gauge) : Prop where
  count : g.count = g.tally Stage.isOpen
  each : ∀ i s, g.stages[i]? = some s → Knows actions g.count g.last? i s
  recorder : ∀ i, lastRecorder? actions = some i → i < g.stages.length
  silent : lastRecorder? actions = none → g.last? = none

theorem traced_nil : Traced [] {} where
  count := rfl
  each := nofun
  recorder := nofun
  silent := fun _ => rfl

/-- A connection that arrives is not counted yet. -/
theorem Traced.arrived (hg : Traced actions g) :
    Traced (actions ++ [.arrive]) { g with stages := g.stages ++ [.arriving] } where
  count := by
    show g.count = ((g.stages ++ [Stage.arriving]).countP Stage.isOpen : Nat)
    rw [List.countP_append]
    exact hg.count
  each := by
    intro i s hs
    change (g.stages ++ [.arriving])[i]? = some s at hs
    rw [List.getElem?_append] at hs
    split at hs
    case isTrue => exact (hg.each i s hs).unchanged rfl rfl rfl
    -- the new connection is behind all that have recorded anything
    case isFalse hnew =>
      obtain rfl := List.mem_singleton.mp (List.mem_of_getElem? hs)
      refine ⟨nofun, ?_, nofun⟩
      rw [lastRecorder?_of_none rfl]
      intro hlast
      exact absurd (hg.recorder i hlast) hnew
  recorder := by
    intro i hi
    rw [lastRecorder?_of_none rfl] at hi
    have hlt := hg.recorder i hi
    show i < (g.stages ++ [Stage.arriving]).length
    rw [List.length_append]
    omega
  silent := by
    rw [lastRecorder?_of_none rfl]
    exact hg.silent

section Moves

variable {i : Nat} {s t : Stage} (hg : Traced actions g) (hs : g.stages[i]? = some s)
include hg hs

omit hs in
theorem Traced.length_setStage {j : Nat} (hj : lastRecorder? actions = some j) :
    j < (g.setStage i t).stages.length := by
  show j < (g.stages.set i t).length
  rw [List.length_set]
  exact hg.recorder j hj

/-- The handshake of a connection comes to its end. -/
theorem Traced.decided (hseen : t.seen? = s.seen?) (hopen : t.isOpen = s.isOpen)
    (hi : ∀ j, a.isChangeOf j = false) (hchange : a.change = 0) (ha : a.recorder? = none) :
    Traced (actions ++ [a]) (g.setStage i t) where
  count := by
    have htally := tally_setStage hs t Stage.isOpen
    rw [hopen] at htally
    rw [Nat.add_right_cancel htally]
    exact hg.count
  each := by
    refine forall_getElem?_set ?_ ?_
    · exact ((hg.each i s hs).congr hseen hopen).unchanged (hi i) hchange ha
    · intro j u _ hu
      exact (hg.each j u hu).unchanged (hi j) hchange ha
  recorder := by
    intro j hj
    rw [lastRecorder?_of_none ha] at hj
    exact hg.length_setStage hj
  silent := by
    rw [lastRecorder?_of_none ha]
    exact hg.silent

/-- A connection moves the counter. -/
theorem Traced.moved {count : Int} (hcount : count = g.count + a.change)
    (hseen : t.seen? = some count) (hopen : (t.isOpen.toNat : Int) = s.isOpen.toNat + a.change)
    (hi : ∀ j, a.isChangeOf j = decide (i = j)) (ha : a.recorder? = none) :
    Traced (actions ++ [a]) { g.setStage i t with count := count } where
  count := by
    have htally := tally_setStage hs t Stage.isOpen
    have hbefore := hg.count
    show count = ((g.setStage i t).tally Stage.isOpen : Int)
    omega
  each := by
    refine forall_getElem?_set ?_ ?_
    · exact Knows.of_change (by simp [hi]) hseen
    · intro j u hji hu
      show Knows _ count _ j u
      rw [hcount]
      exact (hg.each j u hu).drifted (by simp [hi, Ne.symm hji]) ha
  recorder := by
    intro j hj
    rw [lastRecorder?_of_none ha] at hj
    exact hg.length_setStage hj
  silent := by
    rw [lastRecorder?_of_none ha]
    exact hg.silent

/-- A connection records the count that it has seen. -/
theorem Traced.recorded {n : Int} (hn : s.seen? = some n) (ht : t.seen? = none)
    (hopen : t.isOpen = s.isOpen) :
    Traced (actions ++ [.record i]) { g.setStage i t with recorded := g.recorded ++ [n] } where
  count := by
    have htally := tally_setStage hs t Stage.isOpen
    rw [hopen] at htally
    show g.count = ((g.setStage i t).tally Stage.isOpen : Int)
    rw [Nat.add_right_cancel htally]
    exact hg.count
  each := by
    have hlast : (g.recorded ++ [n]).getLast? = some n := List.getLast?_concat
    refine forall_getElem?_set ?_ ?_
    · show Knows _ g.count (g.recorded ++ [n]).getLast? i t
      rw [hlast]
      exact (hg.each i s hs).recorded hn ht
    · intro j u hji hu
      exact (hg.each j u hu).of_record hji _
  recorder := by
    intro j hj
    rw [lastRecorder?_of_some rfl] at hj
    obtain rfl := Option.some.inj hj
    show i < (g.stages.set i t).length
    rw [List.length_set]
    exact (List.getElem?_eq_some_iff.mp hs).1
  silent := by
    rw [lastRecorder?_of_some rfl]
    exact nofun

end Moves

/-- A step keeps the counter and the records in line with what has happened. -/
theorem Step.traced (h : Step g a g') (hg : Traced actions g) : Traced (actions ++ [a]) g' := by
  cases h with
  | arrived => exact hg.arrived
  | refused hi => exact hg.decided hi rfl rfl (fun _ => rfl) rfl rfl
  | upgraded hi => exact hg.decided hi rfl rfl (fun _ => rfl) rfl rfl
  | counted hi => exact hg.moved hi rfl rfl rfl (fun _ => rfl) rfl
  | opened hi => exact hg.recorded hi rfl rfl rfl
  | discounted hi => exact hg.moved hi rfl rfl rfl (fun _ => rfl) rfl
  | closed hi => exact hg.recorded hi rfl rfl rfl

/-- After any steps the counter and the records are in line with what has happened. -/
theorem traced_of_run? (hrun : run? actions {} = some g) : Traced actions g :=
  runs.traced traced_nil (fun hstep hg => (step_of_step? hstep).traced hg) hrun

/-- The counter is never negative and never more than the connections that are not over. So a
    counter of sixty-four bits does not wrap as long as fewer than `2 ^ 63` of them are alive. -/
theorem count_within (hrun : run? actions {} = some g) :
    0 ≤ g.count ∧ g.count ≤ g.tally fun s => !s.isOver := by
  have hopen : g.tally Stage.isOpen ≤ g.tally fun s => !s.isOver := by
    refine List.countP_mono_left ?_
    intro s _ hs
    cases s with
    | counted | serving => rfl
    | arriving | refused | upgraded | discounted | gone => exact nomatch hs
  rw [(traced_of_run? hrun).count]
  omega

/-! ## At rest -/

/-- At rest there is no count to be recorded. -/
theorem seen?_of_isAtRest (hrest : g.isAtRest = true) {s : Stage} (hs : s ∈ g.stages) :
    s.seen? = none := by
  have hpending := List.all_eq_true.mp hrest s hs
  rw [← s.isSome_seen?, Bool.not_eq_true'] at hpending
  exact Option.isNone_iff_eq_none.mp (Option.isSome_eq_false_iff.mp hpending)

/-- At rest the last count on record is off by the drift of the connection that recorded it. -/
theorem Traced.last?_eq (hg : Traced actions g) (hrest : g.isAtRest = true) {i : Nat}
    (hi : lastRecorder? actions = some i) : g.last? = some (g.count - drift i actions) := by
  have hs := List.getElem?_eq_getElem (hg.recorder i hi)
  obtain ⟨n, hn, hcount⟩ := (hg.each i _ hs).last hi (seen?_of_isAtRest hrest (List.getElem_mem _))
  rw [hn, ← hcount, Int.add_sub_cancel]

/-- As long as nothing is on record, no connection is counted at rest. -/
theorem Traced.count_eq_zero (hg : Traced actions g) (hrest : g.isAtRest = true)
    (hnone : lastRecorder? actions = none) : g.count = 0 := by
  rw [hg.count, tally_eq_zero]
  · rfl
  · intro s hs
    obtain ⟨i, hi⟩ := List.mem_iff_getElem?.mp hs
    by_contra hopen
    have hpending := (hg.each i s hi).silent hnone (Bool.not_eq_false _ ▸ hopen)
    rw [← s.isSome_seen?, seen?_of_isAtRest hrest hs] at hpending
    exact nomatch hpending

/-- What the counter and its records tell of any number of connections, whatever the order of their
    steps. The counter is the number of the connections that are counted, so it lacks of those that
    are up only the ones that are still to be counted; a handshake that fails leaves it and its
    records alone; and it is zero once every connection is over. When no connection has a count to
    record, the last one on record is the counter less its drift since the connection that recorded
    last moved it; so it is the counter exactly if there is no such drift. -/
theorem last_record_off_by_drift (hrun : run? actions {} = some g) :
    g.count = g.openCount ∧
      (g.tally Stage.isUp : Int) = g.count + g.tally Stage.isUncounted ∧
      (∀ i g', g.step? (.refuse i) = some g' → g'.count = g.count ∧ g'.recorded = g.recorded) ∧
      ((∀ s ∈ g.stages, s.isOver = true) → g.count = 0) ∧
      (g.isAtRest = true →
        (∀ i, lastRecorder? actions = some i → g.last? = some (g.count - drift i actions)) ∧
        (lastRecorder? actions = none → g.last? = none ∧ g.count = 0) ∧
        (g.last? = some g.count
          ↔ ∃ i, lastRecorder? actions = some i ∧ drift i actions = 0)) := by
  have hg := traced_of_run? hrun
  refine ⟨?_, ?_, ?_, ?_, ?_⟩
  · rw [openCount_eq]
    exact hg.count
  · rw [tally_isUp, hg.count]
    exact Int.natCast_add _ _
  · intro i g' hstep
    cases step_of_step? hstep with
    | refused => exact ⟨rfl, rfl⟩
  · intro hover
    rw [hg.count, tally_eq_zero]
    · rfl
    · intro s hs
      -- of the stages only the last two are over
      have hs := hover s hs
      cases s with
      | refused | gone => rfl
      | arriving | upgraded | counted | serving | discounted => exact nomatch hs
  · intro hrest
    refine ⟨fun i => hg.last?_eq hrest, fun hnone => ⟨hg.silent hnone, hg.count_eq_zero hrest hnone⟩,
      ?_, ?_⟩
    · intro hlast
      cases hi : lastRecorder? actions with
      | none => exact nomatch (hg.silent hi).symm.trans hlast
      | some i =>
          have heq := Option.some.inj ((hg.last?_eq hrest hi).symm.trans hlast)
          exact ⟨i, rfl, by omega⟩
    · rintro ⟨i, hi, hdrift⟩
      rw [hg.last?_eq hrest hi, hdrift, Int.sub_zero]

/-- Two connections are counted before either records, but the one that was counted last records
    last, too. -/
theorem recorded_in_turn :
    run? [.arrive, .arrive, .upgrade 0, .upgrade 1, .count 0, .count 1, .record 0, .record 1] {}
        = some ⟨2, [1, 2], [.serving, .serving]⟩ ∧
      (Gauge.mk 2 [1, 2] [.serving, .serving]).last? = some 2 := by
  have hrun : run? [.arrive, .arrive, .upgrade 0, .upgrade 1, .count 0, .count 1, .record 0,
      .record 1] {} = some ⟨2, [1, 2], [.serving, .serving]⟩ := by decide
  obtain ⟨-, -, -, -, hrest⟩ := last_record_off_by_drift hrun
  obtain ⟨-, -, hlast⟩ := hrest (by decide)
  exact ⟨hrun, hlast.mpr ⟨1, by decide, by decide⟩⟩

/-- Of two connections that have ended the one that was counted off first records last, so that one
    connection stays on record although none is left. -/
theorem ended_connection_on_record :
    run? [.arrive, .arrive, .upgrade 0, .upgrade 1, .count 0, .record 0, .count 1, .record 1,
        .discount 0, .discount 1, .record 1, .record 0] {}
        = some ⟨0, [1, 2, 0, 1], [.gone, .gone]⟩ ∧
      (Gauge.mk 0 [1, 2, 0, 1] [.gone, .gone]).isAtRest = true ∧
      (Gauge.mk 0 [1, 2, 0, 1] [.gone, .gone]).openCount = 0 ∧
      (Gauge.mk 0 [1, 2, 0, 1] [.gone, .gone]).last? = some 1 := by
  decide

end Gauge

end Switchboard
