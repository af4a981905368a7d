import Mathlib.Data.List.Forall2
import Mathlib.Data.List.Nodup

/-!
# Groundwork

What the theory uses of computations that can fail and of lists, whatever they
are about.

A computation in stages ends as its last stage does unless an earlier one has
failed; `bind_eq_ok_iff` and `bind_eq_error_iff` take such an end apart. Of a
list that is used as a table with different keys, the look-ups say the same as
the pairs in it (`lookup_eq_some_iff_mem`), so their order does not matter
(`lookup_eq_of_perm`).
-/

namespace Switchboard

variable {α β γ δ ε : Type}

/-! ## Computations that can fail -/

section Failing

variable {x : Except ε α} {f : α → Except ε β} {g : α → β} {b : β} {e : ε}

/-- Two stages succeed if the first does and then the second. -/
theorem bind_eq_ok_iff : (x >>= f) = .ok b ↔ ∃ a, x = .ok a ∧ f a = .ok b := by
  cases x with
  | error e => exact ⟨nofun, nofun⟩
  | ok a =>
      constructor
      · intro h
        exact ⟨a, rfl, h⟩
      · rintro ⟨_, ⟨⟩, h⟩
        exact h

/-- Two stages fail in the first or in the second. -/
theorem bind_eq_error_iff :
    (x >>= f) = .error e ↔ x = .error e ∨ ∃ a, x = .ok a ∧ f a = .error e := by
  cases x with
  | error e' =>
      constructor
      · intro h
        exact Or.inl (congrArg Except.error (Except.error.inj h))
      · rintro (⟨⟨⟩⟩ | ⟨_, ⟨⟩, -⟩)
        rfl
  | ok a =>
      constructor
      · intro h
        exact Or.inr ⟨a, rfl, h⟩
      · rintro (⟨⟨⟩⟩ | ⟨_, ⟨⟩, h⟩)
        exact h

/-- Why one of two stages has failed may be forgotten before or after. -/
theorem toOption_bind (x : Except ε α) (f : α → Except ε β) :
    (x >>= f).toOption = x.toOption.bind fun a => (f a).toOption := by
  cases x <;> rfl

/-- What is done to a result is done if there is one. -/
theorem map_eq_ok_iff : x.map g = .ok b ↔ ∃ a, x = .ok a ∧ g a = b := by
  cases x with
  | error e => exact ⟨nofun, nofun⟩
  | ok a =>
      constructor
      · intro h
        exact ⟨a, rfl, Except.ok.inj h⟩
      · rintro ⟨_, ⟨⟩, rfl⟩
        rfl

/-- The items of a list are all read if each of them is. -/
theorem mapM_eq_ok_iff {l : List α} {l' : List β} :
    l.mapM f = .ok l' ↔ List.Forall₂ (fun a b => f a = .ok b) l l' := by
  induction l generalizing l' with
  | nil =>
      rw [List.forall₂_nil_left_iff]
      exact ⟨fun h => (Except.ok.inj h).symm, fun h => congrArg Except.ok h.symm⟩
  | cons a rest ih =>
      rw [List.mapM_cons, List.forall₂_cons_left_iff, bind_eq_ok_iff]
      simp only [bind_eq_ok_iff, ih]
      constructor
      · rintro ⟨b, hb, bs, hbs, h⟩
        exact ⟨b, bs, hb, hbs, (Except.ok.inj h).symm⟩
      · rintro ⟨b, bs, hb, hbs, rfl⟩
        exact ⟨b, hb, bs, hbs, rfl⟩

end Failing

/-! ## Items of lists -/

/-- A relation may be replaced by one that follows from it for the items on the left. -/
theorem forall₂_imp_of_mem {R S : α → β → Prop} {l : List α} {l' : List β}
    (h : List.Forall₂ R l l') (himp : ∀ a ∈ l, ∀ b, R a b → S a b) : List.Forall₂ S l l' :=
  ((List.forall₂_and_left l l').mpr ⟨himp, h⟩).imp fun _ _ hab => hab.1 _ hab.2

/-- Lists that agree in one respect agree in all that follows from it. -/
theorem map_eq_map_of_map_eq {f : α → γ} {g : δ → γ} {l : List α} {l' : List δ}
    (h : l.map f = l'.map g) {p : α → ε} {q : δ → ε}
    (hpq : ∀ a ∈ l, ∀ b ∈ l', f a = g b → p a = q b) : l.map p = l'.map q := by
  induction l generalizing l' with
  | nil =>
      rw [List.map_nil, eq_comm, List.map_eq_nil_iff] at h
      rw [h]
      rfl
  | cons a rest ih =>
      obtain ⟨b, rest', rfl, hab, hrest⟩ := List.map_eq_cons_iff.mp h.symm
      obtain ⟨hfirst, hlater⟩ := List.forall_mem_cons.mp hpq
      have hsame := ih hrest.symm fun x hx y hy => hlater x hx y (List.mem_cons_of_mem b hy)
      rw [List.map_cons, List.map_cons, hfirst b List.mem_cons_self hab.symm, hsame]

/-- A list is the same in front of an item and behind it when another one is put in its place. -/
theorem exists_append_set {l : List α} {i : Nat} {a : α} (h : l[i]? = some a) (b : α) :
    ∃ front back, l = front ++ a :: back ∧ l.set i b = front ++ b :: back := by
  obtain ⟨hi, rfl⟩ := List.getElem?_eq_some_iff.mp h
  refine ⟨l.take i, l.drop (i + 1), ?_, ?_⟩
  · rw [List.getElem_cons_drop, List.take_append_drop]
  · rw [List.set_eq_take_append_cons_drop, if_pos hi]

/-- What holds of the item that is put in a place and of all others holds of all items. -/
theorem forall_getElem?_set {l : List α} {i : Nat} {b : α} {Q : Nat → α → Prop} (hb : Q i b)
    (hrest : ∀ j a, j ≠ i → l[j]? = some a → Q j a) :
    ∀ j a, (l.set i b)[j]? = some a → Q j a := by
  intro j a hj
  by_cases hij : i = j
  · rw [List.getElem?_set, if_pos hij] at hj
    split at hj
    · obtain rfl := Option.some.inj hj
      rw [← hij]
      exact hb
    · exact nomatch hj
  · rw [List.getElem?_set, if_neg hij] at hj
    exact hrest j a (Ne.symm hij) hj

/-! ## Look-ups -/

section Lookup

variable [BEq α] [LawfulBEq α] {l l' : List (α × β)} {a : α}

/-- A pair with another key is passed over. -/
theorem lookup_cons_of_ne {ab : α × β} (h : a ≠ ab.1) (rest : List (α × β)) :
    List.lookup a (ab :: rest) = rest.lookup a := by
  rw [List.lookup_cons, beq_false_of_ne h]

/-- Under different keys, a pair is found exactly if it is there. -/
theorem lookup_eq_some_iff_mem (hkeys : (l.map Prod.fst).Nodup) {b : β} :
    l.lookup a = some b ↔ (a, b) ∈ l := by
  constructor
  · intro h
    obtain ⟨front, back, rfl, -⟩ := List.lookup_eq_some_iff.mp h
    exact List.mem_append_right _ List.mem_cons_self
  · intro h
    obtain ⟨front, back, rfl⟩ := List.append_of_mem h
    refine List.lookup_eq_some_iff.mpr ⟨front, back, rfl, ?_⟩
    intro ab hab
    rw [List.map_append, List.nodup_append] at hkeys
    exact bne_iff_ne.mpr (hkeys.2.2 ab.1 (List.mem_map_of_mem hab) a List.mem_cons_self).symm

/-- Under different keys, the order of the pairs does not matter. -/
theorem lookup_eq_of_perm (hkeys : (l.map Prod.fst).Nodup) (hperm : l'.Perm l) (a : α) :
    l'.lookup a = l.lookup a := by
  have hkeys' : (l'.map Prod.fst).Nodup := (hperm.map Prod.fst).nodup_iff.mpr hkeys
  refine Option.ext fun b => ?_
  rw [lookup_eq_some_iff_mem hkeys, lookup_eq_some_iff_mem hkeys', hperm.mem_iff]

end Lookup

end Switchboard
