import Mathlib
import Switchboard.Journal.Measurement
import Switchboard.Proofs.Numerals

/-!
# What counters show

A recording keeps every amount, and a counter shows the sum of the amounts
under its labels. Where each amount is one, that sum is the number of samples
with these labels, and the sum of all counters whose labels have a property is
the number of samples that have it (`Recording.sumOf_eq`). So what counters
show is read off the labels of the samples, and those are read off what has
been measured: the codes of error objects (`Measurement.code?`) and the methods
and outcomes of requests (`Measurement.outcome?`).

Labels are texts, so two series are told apart only if their labels are
different texts. Different codes and different outcomes are.
-/

namespace Switchboard

/-! ## Counters -/

namespace Recording

variable (r : Recording) (i : Instrument)

/-- The labels of the samples on an instrument, in order. -/
def labelsOn : List String := (r.on i).map (·.labels)

/-- What the counter of an instrument shows under labels. -/
def counter (labels : String) : Number := ((r.on i).amounts labels).total

/-- The sum of what the counters of an instrument show under all labels with a property. -/
def sumOf (p : String → Bool) : Number :=
  (((r.labelsOn i).dedup.filter p).map (r.counter i)).foldl Number.add (.int 0)

/-- Each amount on an instrument is one. -/
def Counts : Prop := ∀ s ∈ r.on i, s.amount? = some (.int 1)

end Recording

/-- The sum of ones is their number. -/
theorem Amounts.total_replicate_one (n : ℕ) :
    Amounts.total (List.replicate n (some (.int 1))) = .int n := by
  have hfold (k : ℕ) (a : ℤ) :
      (List.replicate k (Number.int 1)).foldl Number.add (.int a) = .int (a + k) := by
    induction k generalizing a with
    | zero => simp
    | succ k ih =>
        rw [List.replicate_succ, List.foldl_cons]
        show List.foldl _ (Number.int (a + 1)) _ = _
        rw [ih, Nat.cast_succ, add_assoc, add_comm 1]
  cases n with
  | zero => rfl
  | succ n =>
      have hmeasured : Amounts.measured (List.replicate (n + 1) (some (Number.int 1)))
          = Number.int 1 :: List.replicate n (Number.int 1) := by
        unfold Amounts.measured
        rw [← List.map_replicate, List.filterMap_map]
        exact List.filterMap_some
      unfold Amounts.total
      rw [hmeasured]
      show List.foldl _ _ _ = _
      rw [hfold, Nat.cast_succ, add_comm]

namespace Recording

variable {r : Recording} {i : Instrument}

/-- There are as many amounts under labels as samples with them. -/
theorem count_amounts (r : Recording) (i : Instrument) (labels : String) :
    ((r.on i).amounts labels).count = (r.labelsOn i).count labels := by
  unfold amounts labelsOn List.count Amounts.count
  rw [List.length_map, List.countP_map, List.countP_eq_length_filter]
  rfl

/-- A counter shows how many samples there are under its labels. -/
theorem Counts.counter_eq (h : r.Counts i) (labels : String) :
    r.counter i labels = .int ((r.labelsOn i).count labels) := by
  have hamounts : (r.on i).amounts labels
      = List.replicate ((r.labelsOn i).count labels) (some (.int 1)) := by
    refine List.eq_replicate_iff.mpr ⟨r.count_amounts i labels, ?_⟩
    intro a ha
    obtain ⟨s, hs, rfl⟩ := List.mem_map.mp ha
    exact h s (List.mem_of_mem_filter hs)
  unfold counter
  rw [hamounts, Amounts.total_replicate_one]

/-- Counters add up to the number of samples. -/
theorem Counts.sumOf_eq (h : r.Counts i) (p : String → Bool) :
    r.sumOf i p = .int ((r.labelsOn i).countP p) := by
  have hsum (l : List String) (a : ℕ) :
      (l.map (r.counter i)).foldl Number.add (.int a)
        = .int (a + (l.map fun labels => (r.labelsOn i).count labels).sum : ℕ) := by
    induction l generalizing a with
    | nil => rfl
    | cons labels rest ih =>
        rw [List.map_cons, List.foldl_cons, h.counter_eq, List.map_cons, List.sum_cons,
          ← add_assoc]
        exact ih (a + (r.labelsOn i).count labels)
  unfold sumOf
  rw [← List.sum_map_count_dedup_filter_eq_countP]
  exact (hsum _ 0).trans (by rw [Nat.zero_add])

end Recording

/-! ## Labels -/

/-- The labels of a request that has been carried out. -/
def requestLabels (method status : String) : String := "method=" ++ method ++ ",status=" ++ status

/-- The labels of an error object. -/
def errorLabels (code : ℤ) : String := "code=" ++ String.ofList (intDigits code)

/-- Labels say that a request ended with a status. -/
def hasStatus (status labels : String) : Bool :=
  (",status=" ++ status).toList.isSuffixOf labels.toList

theorem intDigits_injective : Function.Injective intDigits := by
  have hnat {m n : ℕ} (h : natDigits m = natDigits n) : m = n := by
    rw [← digitsValue_natDigits m, h, digitsValue_natDigits]
  -- no digit is a minus sign
  have hsign {m n : ℕ} : natDigits m ≠ '-' :: natDigits n := by
    intro h
    have hminus := allDigits_natDigits m '-' (h ▸ List.mem_cons_self)
    exact nomatch hminus
  intro a b h
  unfold intDigits at h
  by_cases ha : a < 0
  · by_cases hb : b < 0
    · rw [if_pos ha, if_pos hb] at h
      have := hnat (List.cons.inj h).2
      omega
    · rw [if_pos ha, if_neg hb] at h
      exact absurd h.symm hsign
  · by_cases hb : b < 0
    · rw [if_neg ha, if_pos hb] at h
      exact absurd h hsign
    · rw [if_neg ha, if_neg hb] at h
      have := hnat h
      omega

/-- Different codes have different labels. -/
theorem errorLabels_injective : Function.Injective errorLabels := by
  intro a b h
  refine intDigits_injective (String.ofList_injective ?_)
  exact String.append_right_inj _ |>.mp h

/-- The labels of a request say how it ended, and nothing else. -/
theorem hasStatus_requestLabels (method : String) {status other : String}
    (hstatus : status = "success" ∨ status = "error")
    (hother : other = "success" ∨ other = "error") :
    hasStatus status (requestLabels method other) = decide (other = status) := by
  have hends : (",status=" ++ other).toList <:+ (requestLabels method other).toList := by
    have hsplit : requestLabels method other = ("method=" ++ method) ++ (",status=" ++ other) :=
      String.append_assoc
    rw [hsplit]
    exact ⟨("method=" ++ method).toList, String.toList_append.symm⟩
  unfold hasStatus
  rw [Bool.eq_iff_iff, List.isSuffixOf_iff_suffix, decide_eq_true_eq]
  constructor
  · intro h
    -- of two ends of one text the shorter is an end of the longer
    have hnested := List.suffix_or_suffix_of_suffix hends h
    rcases hstatus with rfl | rfl <;> rcases hother with rfl | rfl <;> revert hnested <;> decide
  · rintro rfl
    exact hends

/-! ## What has been measured -/

namespace Measurement

/-- The code of an error object. -/
def code? : Measurement → Option ℤ
  | .error code => some code
  | .request .. | .batch _ | .methods _ | .connections _ => none

/-- The method of a request and how it ended. -/
def outcome? : Measurement → Option (String × String)
  | .request method status _ => some (method, status)
  | .error _ | .batch _ | .methods _ | .connections _ => none

/-- The number of envelopes of a batch. -/
def batchSize? : Measurement → Option ℕ
  | .batch size => some size
  | .request .. | .error _ | .methods _ | .connections _ => none

end Measurement

namespace Recording

theorem ofMeasurements_cons (m : Measurement) (l : List Measurement) :
    ofMeasurements (m :: l) = m.samples ++ ofMeasurements l := rfl

theorem labelsOn_append (r r' : Recording) (i : Instrument) :
    labelsOn (r ++ r') i = labelsOn r i ++ labelsOn r' i := by
  unfold labelsOn on
  rw [List.filter_append, List.map_append]

/-- Error objects are counted under the codes that have been measured. -/
theorem labelsOn_errors (l : List Measurement) :
    (ofMeasurements l).labelsOn .errors = (l.filterMap Measurement.code?).map errorLabels := by
  induction l with
  | nil => rfl
  | cons m l ih =>
      rw [ofMeasurements_cons, labelsOn_append, ih]
      cases m <;> rfl

/-- Requests are counted under their methods and how they ended. -/
theorem labelsOn_requests (l : List Measurement) :
    (ofMeasurements l).labelsOn .requests
      = (l.filterMap Measurement.outcome?).map fun o => requestLabels o.1 o.2 := by
  induction l with
  | nil => rfl
  | cons m l ih =>
      rw [ofMeasurements_cons, labelsOn_append, ih]
      cases m <;> rfl

/-- Durations have the labels of requests. -/
theorem labelsOn_duration (l : List Measurement) :
    (ofMeasurements l).labelsOn .duration = (ofMeasurements l).labelsOn .requests := by
  induction l with
  | nil => rfl
  | cons m l ih =>
      rw [ofMeasurements_cons, labelsOn_append, labelsOn_append, ih]
      cases m <;> rfl

/-- The sizes of batches are recorded as they have been measured. -/
theorem amounts_batchSize (l : List Measurement) :
    ((ofMeasurements l).on .batchSize).map (·.amount?)
      = (l.filterMap Measurement.batchSize?).map fun n => some (.int n) := by
  induction l with
  | nil => rfl
  | cons m l ih =>
      rw [ofMeasurements_cons, on, List.filter_append, List.map_append]
      exact (congrArg _ ih).trans (by cases m <;> rfl)

/-- Requests and error objects are counted one by one. -/
theorem counts_ofMeasurements (l : List Measurement) {i : Instrument}
    (hi : i.aggregation = .counter) : (ofMeasurements l).Counts i := by
  intro s hs
  obtain ⟨hmem, hon⟩ := List.mem_filter.mp hs
  obtain rfl : s.instrument = i := of_decide_eq_true hon
  obtain ⟨m, -, hm⟩ := List.mem_flatMap.mp hmem
  cases m with
  | request method status seconds? =>
      rcases List.mem_pair.mp hm with rfl | rfl
      · rfl
      · exact nomatch hi
  | error code =>
      obtain rfl := List.mem_singleton.mp hm
      rfl
  | batch size | methods count | connections count =>
      obtain rfl := List.mem_singleton.mp hm
      exact nomatch hi

/-- The counter of a code shows how many error objects have had it. -/
theorem counter_errors (l : List Measurement) (code : ℤ) :
    (ofMeasurements l).counter .errors (errorLabels code)
      = .int ((l.filterMap Measurement.code?).count code) := by
  rw [(counts_ofMeasurements l rfl).counter_eq, labelsOn_errors,
    List.count_map_of_injective _ _ errorLabels_injective]

/-- The counters of all codes show how many error objects there have been. -/
theorem sumOf_errors (l : List Measurement) :
    (ofMeasurements l).sumOf .errors (fun _ => true)
      = .int (l.filterMap Measurement.code?).length := by
  rw [(counts_ofMeasurements l rfl).sumOf_eq, labelsOn_errors, List.countP_true,
    List.length_map]

/-- Under any labels there are as many durations as requests. -/
theorem counter_requests (l : List Measurement) (labels : String) :
    (ofMeasurements l).counter .requests labels
      = .int (((ofMeasurements l).on .duration).amounts labels).count := by
  rw [(counts_ofMeasurements l rfl).counter_eq, count_amounts, labelsOn_duration]

/-- There are as many durations as requests. -/
theorem sumOf_all_requests (l : List Measurement) :
    (ofMeasurements l).sumOf .requests (fun _ => true)
      = .int ((ofMeasurements l).on .duration).length := by
  rw [(counts_ofMeasurements l rfl).sumOf_eq, List.countP_true, ← labelsOn_duration, labelsOn,
    List.length_map]

/-- The counters of all methods show how many requests ended in a way. -/
theorem sumOf_requests {l : List Measurement} {status : String}
    (hl : ∀ o ∈ l.filterMap Measurement.outcome?, o.2 = "success" ∨ o.2 = "error")
    (hstatus : status = "success" ∨ status = "error") :
    (ofMeasurements l).sumOf .requests (hasStatus status)
      = .int ((l.filterMap Measurement.outcome?).countP fun o => o.2 = status) := by
  rw [(counts_ofMeasurements l rfl).sumOf_eq, labelsOn_requests, List.countP_map]
  refine congrArg (fun n : ℕ => Number.int n) (List.countP_congr ?_)
  intro o ho
  rw [Function.comp_apply, hasStatus_requestLabels o.1 hstatus (hl o ho)]

end Recording

end Switchboard
