import Mathlib.Data.List.Induction
import Switchboard.Method.Table

/-!
# Tables that come from registrations

A table is built up by registering one method after the other. A registration
whose text is no signature fails and leaves the table as it was; all others
put their method in, in place of an earlier one of the same name. So the
method of a name is the last one that was registered under it
(`find?_ofRegistrations`), and everything that is found in a table has been
registered with a signature that was read from a text.
-/

namespace Switchboard

variable {σ : Type}

/-- The method that a registration adds, unless it fails. -/
def Registration.method? (r : Registration σ) : Option (Method σ) :=
  (MethodTable.methodOf r.text r.handler r.terms).toOption

/-- A registration is read to a method with the signature that its text is read as. -/
theorem Registration.method?_eq_some_iff {r : Registration σ} {m : Method σ} :
    r.method? = some m ↔ ∃ sig, Signature.parse r.text r.terms.parameterNames = .ok sig
      ∧ m = Method.make sig r.handler r.terms := by
  unfold method? MethodTable.methodOf
  cases Signature.parse r.text r.terms.parameterNames with
  | ok sig =>
      constructor
      · intro h
        exact ⟨sig, rfl, (Option.some.inj h).symm⟩
      · rintro ⟨sig', ⟨⟩, rfl⟩
        rfl
  | error d =>
      constructor
      · exact nofun
      · rintro ⟨sig, hnone, -⟩
        exact nomatch hnone

namespace MethodTable

/-- The table after a registration. -/
def registered (t : MethodTable σ) (r : Registration σ) : MethodTable σ :=
  match t.register r.text r.handler r.terms with
  | .ok (after, _) => after
  | .error _ => t

/-- The table after registrations in order, the first of them in an empty table. -/
def ofRegistrations (rs : List (Registration σ)) : MethodTable σ := rs.foldl registered ∅

theorem registered_of_some {r : Registration σ} {m : Method σ} (h : r.method? = some m)
    (t : MethodTable σ) : t.registered r = t.insert m := by
  unfold registered register
  unfold Registration.method? at h
  cases hm : methodOf r.text r.handler r.terms with
  | ok n =>
      rw [hm] at h
      obtain rfl : n = m := Option.some.inj h
      rfl
  | error f =>
      rw [hm] at h
      exact nomatch h

/-- A registration that cannot be read leaves a table as it was. -/
theorem registered_of_none {r : Registration σ} (h : r.method? = none) (t : MethodTable σ) :
    t.registered r = t := by
  unfold registered register
  unfold Registration.method? at h
  cases hm : methodOf r.text r.handler r.terms with
  | ok n =>
      rw [hm] at h
      exact nomatch h
  | error f => rfl

/-! ## What is found -/

/-- The method that is put in is found under its name, and nothing else changes. -/
theorem find?_insert (t : MethodTable σ) (m : Method σ) (name : String) :
    (t.insert m).find? name = if m.name = name then some m else t.find? name := by
  obtain ⟨methods⟩ := t
  show (insertMethod m methods).find? _ = if m.name = name then some m else methods.find? _
  induction methods with
  | nil =>
      unfold insertMethod
      by_cases hm : m.name = name
      · simp [hm]
      · simp [hm]
  | cons n rest ih =>
      unfold insertMethod
      by_cases hlt : m.name < n.name
      · rw [if_pos hlt, List.find?_cons]
        by_cases hm : m.name = name <;> simp [hm]
      · rw [if_neg hlt]
        by_cases heq : m.name = n.name
        · rw [if_pos heq, List.find?_cons, List.find?_cons]
          by_cases hm : m.name = name
          · simp [hm]
          · simp [hm, ← heq]
        · rw [if_neg heq, List.find?_cons, List.find?_cons, ih]
          by_cases hn : n.name = name
          · have hm : ¬ m.name = name := fun h => heq (h.trans hn.symm)
            simp [hn, hm]
          · simp [hn]

/-- The method of a name is the last one that was registered under it. -/
theorem find?_ofRegistrations (rs : List (Registration σ)) (name : String) :
    (ofRegistrations rs).find? name
      = (rs.filterMap Registration.method?).reverse.find? fun m => m.name = name := by
  induction rs using List.reverseRecOn with
  | nil => rfl
  | append_singleton rs r ih =>
      have hstep : ofRegistrations (rs ++ [r]) = (ofRegistrations rs).registered r := by
        unfold ofRegistrations
        rw [List.foldl_append]
        rfl
      rw [hstep, List.filterMap_append]
      cases hm : r.method? with
      | none =>
          rw [registered_of_none hm, ih, List.filterMap_cons_none hm]
          simp
      | some m =>
          rw [registered_of_some hm, find?_insert, ih, List.filterMap_cons_some hm]
          by_cases h : m.name = name <;> simp [h]

/-- A method that is found has been registered, under the name by which it is found. -/
theorem exists_registration {rs : List (Registration σ)} {name : String} {m : Method σ}
    (h : (ofRegistrations rs).find? name = some m) : ∃ r ∈ rs, r.method? = some m := by
  rw [find?_ofRegistrations] at h
  exact List.mem_filterMap.mp (List.mem_reverse.mp (List.mem_of_find?_eq_some h))

end MethodTable

end Switchboard
