import Mathlib.Data.List.Induction

/-!
# Places in a list

Something is looked for in each item of a list, and `numbered` keeps what is
found together with the place where it was found. Two such lists are put
together from their halves: the places, which depend only on where something is
found (`map_fst_numbered_congr`), and what is found there (`map_snd_numbered`).
-/

namespace Switchboard

variable {α β γ δ : Type}

/-- What is found in the items of a list, each time with the place of the item. -/
def numbered (g : α → Option β) (l : List α) : List (Nat × β) :=
  l.zipIdx.filterMap fun x => (g x.1).map (x.2, ·)

/-- A thing has the number of the item that it is found in. -/
theorem mem_numbered {g : α → Option β} {l : List α} {k : Nat} {b : β} :
    (k, b) ∈ numbered g l ↔ ∃ a, l[k]? = some a ∧ g a = some b := by
  simp only [numbered, List.mem_filterMap, List.mem_zipIdx_iff_getElem?, Option.map_eq_some_iff,
    Prod.mk.injEq, Prod.exists]
  constructor
  · rintro ⟨a, k', hk, b', hb, rfl, rfl⟩
    exact ⟨a, hk, hb⟩
  · rintro ⟨a, hk, hb⟩
    exact ⟨a, k, hk, b, hb, rfl, rfl⟩

/-- Items that come later do not change the numbers of those before. -/
theorem numbered_append (g : α → Option β) (l l' : List α) :
    numbered g l <+: numbered g (l ++ l') := by
  simp only [numbered, List.zipIdx_append, List.filterMap_append]
  exact List.prefix_append _ _

theorem numbered_concat (g : α → Option β) (l : List α) (a : α) :
    numbered g (l ++ [a]) = numbered g l ++ ((g a).map (l.length, ·)).toList := by
  simp only [numbered, List.zipIdx_append, List.filterMap_append, Nat.zero_add]
  refine congrArg (_ ++ ·) ?_
  show List.filterMap _ [(a, l.length)] = _
  cases hg : g a with
  | none => simp [hg]
  | some b => simp [hg]

/-- Apart from the numbers it is what is found in the items. -/
theorem map_snd_numbered (g : α → Option β) (l : List α) :
    (numbered g l).map Prod.snd = l.filterMap g := by
  induction l using List.reverseRecOn with
  | nil => rfl
  | append_singleton l a ih =>
      rw [numbered_concat, List.map_append, ih, List.filterMap_append]
      refine congrArg (_ ++ ·) ?_
      cases hg : g a with
      | none => simp [hg]
      | some b => simp [hg]

/-- Places come in increasing order. -/
theorem numbered_sorted (g : α → Option β) (l : List α) :
    ((numbered g l).map Prod.fst).Pairwise (· < ·) := by
  induction l using List.reverseRecOn with
  | nil => exact List.Pairwise.nil
  | append_singleton l a ih =>
      rw [numbered_concat, List.map_append, List.pairwise_append]
      refine ⟨ih, ?_, ?_⟩
      · cases g a with
        | none => exact List.Pairwise.nil
        | some b => exact List.pairwise_singleton _ _
      · intro k hk k' hk'
        -- the place of the last item is behind all others
        obtain ⟨⟨_, b⟩, hb, rfl⟩ := List.mem_map.mp hk
        obtain ⟨x, hx, -⟩ := mem_numbered.mp hb
        obtain ⟨hlt, -⟩ := List.getElem?_eq_some_iff.mp hx
        cases hg : g a with
        | none => simp [hg] at hk'
        | some c =>
            simp only [hg, Option.map_some, Option.toList_some, List.map_singleton,
              List.mem_singleton] at hk'
            rw [hk']
            exact hlt

/-- Two lists in which something is found at the same places. -/
theorem map_fst_numbered_congr {g : α → Option β} {g' : δ → Option γ} {l : List α} {l' : List δ}
    (h : l.map (fun a => (g a).isSome) = l'.map (fun a => (g' a).isSome)) :
    (numbered g l).map Prod.fst = (numbered g' l').map Prod.fst := by
  induction l using List.reverseRecOn generalizing l' with
  | nil =>
      rw [List.map_nil, eq_comm, List.map_eq_nil_iff] at h
      rw [h]
      rfl
  | append_singleton l a ih =>
      rw [List.map_append, eq_comm, List.map_eq_append_iff] at h
      obtain ⟨m, r, rfl, hm, hr⟩ := h
      obtain ⟨a', rfl, ha⟩ := List.map_eq_singleton_iff.mp hr
      -- items are numbered by how many come before, which is the same in both lists
      have hlength : l.length = m.length := by
        simpa using congrArg List.length hm.symm
      rw [numbered_concat, numbered_concat, List.map_append, List.map_append, ih hm.symm, hlength]
      refine congrArg (_ ++ ·) ?_
      have hsame : (g a).isSome = (g' a').isSome := ha.symm
      cases hg : g a with
      | none =>
          rw [hg, Option.isSome_none, eq_comm, Option.isSome_eq_false_iff,
            Option.isNone_iff_eq_none] at hsame
          rw [hsame]
          rfl
      | some b =>
          rw [hg, Option.isSome_some, eq_comm, Option.isSome_iff_exists] at hsame
          obtain ⟨b', hb'⟩ := hsame
          rw [hb']
          rfl

/-- If both halves of some pairs begin like those of others, so do the pairs. -/
theorem prefix_of_halves {l : List (Nat × β)} {ds : List δ} {f : δ → Nat} {g : δ → β}
    {xs : List β} {ys : List Nat} (hsnd : l.map Prod.snd = ds.map g ++ xs)
    (hfst : l.map Prod.fst <+: ds.map f ++ ys) : ds.map (fun d => (f d, g d)) <+: l := by
  induction ds generalizing l with
  | nil => exact List.nil_prefix
  | cons d ds ih =>
      obtain ⟨⟨k, b⟩, rest, rfl, hb, hrest⟩ := List.map_eq_cons_iff.mp hsnd
      obtain ⟨hk, hks⟩ := List.cons_prefix_cons.mp hfst
      obtain rfl : k = f d := hk
      obtain rfl : b = g d := hb
      exact List.cons_prefix_cons.mpr ⟨rfl, ih hrest hks⟩

end Switchboard
