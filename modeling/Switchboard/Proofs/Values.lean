import Mathlib
import Switchboard.Json.Reader
import Switchboard.Proofs.Numerals

/-!
# Values as texts hold them

Not every value comes back from its text as it was: a reader sorts the members
of an object by key and drops all but the last of one key. `Json.sorted` is
what comes back. The values that a program works with are the ones that are
already so, with numbers that can be written (`Json.Valid`); envelopes, whose
members are written in an order of their own, are merely `Json.Sound`.
-/

namespace Switchboard

/-! ## Members in order -/

namespace Members

/-- Members are in the order of their keys, and no key stands twice. -/
def Sorted (ms : Members) : Prop := ms.Pairwise fun a b => a.1 < b.1

/-- No key stands twice in sorted members. -/
theorem Sorted.nodup_keys {ms : Members} (h : Sorted ms) : (ms.map Prod.fst).Nodup :=
  List.pairwise_map.mpr (h.imp fun hlt => hlt.ne)

theorem mem_insert {key : String} {value : Json} {ms : Members} {kv : String × Json}
    (h : kv ∈ ms.insert key value) : kv = (key, value) ∨ kv ∈ ms := by
  induction ms with
  | nil => exact Or.inl (List.mem_singleton.mp h)
  | cons head rest ih =>
      obtain ⟨k, v⟩ := head
      unfold insert at h
      split at h
      · exact (List.mem_cons.mp h).imp_right id
      · split at h
        · exact (List.mem_cons.mp h).imp_right (List.mem_cons_of_mem _)
        · rcases List.mem_cons.mp h with rfl | hrest
          · exact Or.inr List.mem_cons_self
          · exact (ih hrest).imp_right (List.mem_cons_of_mem _)

/-- Members stay sorted when one is put in. -/
theorem Sorted.insert {ms : Members} (h : Sorted ms) (key : String) (value : Json) :
    Sorted (ms.insert key value) := by
  induction ms with
  | nil => exact List.pairwise_singleton _ _
  | cons head rest ih =>
      obtain ⟨k, v⟩ := head
      obtain ⟨hhead, hrest⟩ := List.pairwise_cons.mp h
      unfold Members.insert
      split
      · rename_i hlt
        refine List.pairwise_cons.mpr ⟨?_, h⟩
        intro kv hkv
        rcases List.mem_cons.mp hkv with rfl | hmem
        · exact hlt
        · exact hlt.trans (hhead kv hmem)
      · split
        · rename_i heq
          obtain rfl := heq
          exact List.pairwise_cons.mpr ⟨hhead, hrest⟩
        · rename_i hnlt hne
          refine List.pairwise_cons.mpr ⟨?_, ih hrest⟩
          intro kv hkv
          -- behind the head there is the new member or what was there before
          rcases mem_insert hkv with rfl | hmem
          · exact lt_of_le_of_ne (not_lt.mp hnlt) (Ne.symm hne)
          · exact hhead kv hmem

theorem foldl_insert_sorted (l : List (String × Json)) {ms : Members} (h : Sorted ms) :
    Sorted (l.foldl (fun m kv => m.insert kv.1 kv.2) ms) := by
  induction l generalizing ms with
  | nil => exact h
  | cons kv l ih => exact ih (h.insert kv.1 kv.2)

theorem mem_foldl_insert {l : List (String × Json)} {ms : Members} {kv : String × Json}
    (h : kv ∈ l.foldl (fun (m : Members) kv => m.insert kv.1 kv.2) ms) : kv ∈ l ∨ kv ∈ ms := by
  induction l generalizing ms with
  | nil => exact Or.inr h
  | cons head l ih =>
      rcases ih h with hl | hms
      · exact Or.inl (List.mem_cons_of_mem _ hl)
      · rcases mem_insert hms with rfl | hold
        · exact Or.inl List.mem_cons_self
        · exact Or.inr hold

/-- What is read is in order. -/
theorem ofList_sorted (l : List (String × Json)) : Sorted (ofList l) :=
  foldl_insert_sorted l List.Pairwise.nil

/-- A member of a new key is added to the others. -/
theorem insert_perm {key : String} {ms : Members} (h : key ∉ ms.map Prod.fst) (value : Json) :
    (ms.insert key value).Perm ((key, value) :: ms) := by
  induction ms with
  | nil => exact List.Perm.refl _
  | cons head rest ih =>
      obtain ⟨k, v⟩ := head
      obtain ⟨hne, hrest⟩ := List.ne_and_not_mem_of_not_mem_cons h
      unfold Members.insert
      by_cases hlt : key < k
      · rw [if_pos hlt]
      · rw [if_neg hlt, if_neg (show key ≠ k from hne)]
        exact ((ih hrest).cons (k, v)).trans (List.Perm.swap (key, value) (k, v) rest)

/-- Where all keys differ, no member is lost by putting them in one after the other. -/
theorem foldl_insert_perm (l : List (String × Json)) {ms : Members}
    (h : ((ms ++ l).map Prod.fst).Nodup) :
    (l.foldl (fun (m : Members) kv => m.insert kv.1 kv.2) ms).Perm (ms ++ l) := by
  induction l generalizing ms with
  | nil => exact List.Perm.of_eq (List.append_nil ms).symm
  | cons kv l ih =>
      have hmiddle : (ms ++ kv :: l).Perm (kv :: (ms ++ l)) := List.perm_middle
      have hnodup := (hmiddle.map Prod.fst).nodup_iff.mp h
      have hkey : kv.1 ∉ ms.map Prod.fst := by
        intro hmem
        refine (List.nodup_cons.mp hnodup).1 ?_
        rw [List.map_append]
        exact List.mem_append_left _ hmem
      have hinsert : (ms.insert kv.1 kv.2 ++ l).Perm (kv :: (ms ++ l)) :=
        (insert_perm hkey kv.2).append_right l
      exact (ih ((hinsert.map Prod.fst).nodup_iff.mpr hnodup)).trans (hinsert.trans hmiddle.symm)

/-- Members with different keys are all read. -/
theorem ofList_perm_of_nodup {l : List (String × Json)} (h : (l.map Prod.fst).Nodup) :
    (ofList l).Perm l :=
  foldl_insert_perm l h

/-- However members with different keys are written, they are read in the order of the keys. -/
theorem Sorted.ofList_perm {ms : Members} (h : Sorted ms) {l : List (String × Json)}
    (hl : l.Perm ms) : ofList l = ms := by
  have hperm : (ofList l).Perm l :=
    ofList_perm_of_nodup ((hl.map Prod.fst).nodup_iff.mpr h.nodup_keys)
  refine List.Perm.eq_of_pairwise ?_ (ofList_sorted l) h (hperm.trans hl)
  intro a b _ _ hab hba
  exact absurd hba hab.not_gt

/-- Members are in order if their keys are. -/
theorem sorted_of_keys {ms : Members} (h : (ms.map Prod.fst).Pairwise (· < ·)) : Sorted ms :=
  List.pairwise_map.mp h

/-- Members that are in order stay as they are. -/
theorem Sorted.ofList_eq {ms : Members} (h : Sorted ms) : ofList ms = ms :=
  h.ofList_perm (List.Perm.refl ms)

end Members

namespace Json

/-! ## Induction -/

/-- Induction over values, with the items of an array and the members of an object at once. -/
@[elab_as_elim] theorem induct {motive : Json → Prop} (null : motive .null)
    (bool : ∀ b, motive (.bool b)) (num : ∀ n, motive (.num n)) (str : ∀ s, motive (.str s))
    (arr : ∀ items, (∀ v ∈ items, motive v) → motive (.arr items))
    (obj : ∀ members : Members, (∀ kv ∈ members, motive kv.2) → motive (.obj members)) (v : Json) :
    motive v := by
  refine Json.rec (motive_2 := fun items => ∀ v ∈ items, motive v)
    (motive_3 := fun members => ∀ kv ∈ members, motive kv.2) (motive_4 := fun kv => motive kv.2)
    null bool num str arr obj (fun _ h => nomatch h) ?_ (fun _ h => nomatch h) ?_ (fun _ _ h => h) v
  · intro v rest hv hrest
    exact List.forall_mem_cons.mpr ⟨hv, hrest⟩
  · intro kv rest hkv hrest
    exact List.forall_mem_cons.mpr ⟨hkv, hrest⟩

/-! ## Depth -/

mutual

/-- How deep arrays and objects are nested in a value. -/
def depth : Json → ℕ
  | .arr items => itemsDepth items + 1
  | .obj members => membersDepth members + 1
  | _ => 0

/-- The depth of the deepest item. -/
def itemsDepth : List Json → ℕ
  | [] => 0
  | v :: rest => max v.depth (itemsDepth rest)

/-- The depth of the deepest member. -/
def membersDepth : List (String × Json) → ℕ
  | [] => 0
  | (_, v) :: rest => max v.depth (membersDepth rest)

end

/-! ## Order -/

mutual

/-- A value with the members of all its objects in the order in which they are read. -/
def sorted : Json → Json
  | .arr items => .arr (sortedItems items)
  | .obj members => .obj (Members.ofList (sortedMembers members))
  | v => v

/-- Items, each with its members in order. -/
def sortedItems : List Json → List Json
  | [] => []
  | v :: rest => v.sorted :: sortedItems rest

/-- Members, each with the members of its value in order. -/
def sortedMembers : List (String × Json) → List (String × Json)
  | [] => []
  | (k, v) :: rest => (k, v.sorted) :: sortedMembers rest

end

theorem sortedItems_eq_self {items : List Json} (h : ∀ v ∈ items, v.sorted = v) :
    sortedItems items = items := by
  induction items with
  | nil => rfl
  | cons v rest ih =>
      obtain ⟨hv, hrest⟩ := List.forall_mem_cons.mp h
      show v.sorted :: sortedItems rest = _
      rw [hv, ih hrest]

theorem sortedMembers_eq_self {members : List (String × Json)}
    (h : ∀ kv ∈ members, kv.2.sorted = kv.2) : sortedMembers members = members := by
  induction members with
  | nil => rfl
  | cons kv rest ih =>
      obtain ⟨hkv, hrest⟩ := List.forall_mem_cons.mp h
      show (kv.1, kv.2.sorted) :: sortedMembers rest = _
      rw [hkv, ih hrest]

/-- Items are put in order one by one. -/
theorem sortedItems_eq_map (items : List Json) : sortedItems items = items.map sorted := by
  induction items with
  | nil => rfl
  | cons v rest ih => exact congrArg (v.sorted :: ·) ih

/-- An object in order is known by its members, however they are written. -/
theorem sorted_obj {written read : Members} (hread : read.Sorted)
    (hperm : (sortedMembers written).Perm read) : (Json.obj written).sorted = .obj read := by
  show Json.obj (Members.ofList (sortedMembers written)) = _
  rw [hread.ofList_perm hperm]

/-! ## Values that come back -/

/-- A value of which all numbers can be written. -/
inductive Sound : Json → Prop where
  | null : Sound .null
  | bool (b : Bool) : Sound (.bool b)
  | num {n : Number} (h : n.Valid) : Sound (.num n)
  | str (s : String) : Sound (.str s)
  | arr {items : List Json} (h : ∀ v ∈ items, Sound v) : Sound (.arr items)
  | obj {members : Members} (h : ∀ kv ∈ members, Sound kv.2) : Sound (.obj members)

/-- A value of which all numbers can be written and all objects are in the order of their keys,
    with no key twice. -/
inductive Valid : Json → Prop where
  | null : Valid .null
  | bool (b : Bool) : Valid (.bool b)
  | num {n : Number} (h : n.Valid) : Valid (.num n)
  | str (s : String) : Valid (.str s)
  | arr {items : List Json} (h : ∀ v ∈ items, Valid v) : Valid (.arr items)
  | obj {members : Members} (hsorted : members.Sorted) (h : ∀ kv ∈ members, Valid kv.2) :
      Valid (.obj members)

/-- All numbers of a valid value can be written. -/
theorem Valid.sound {v : Json} (hv : v.Valid) : v.Sound := by
  induction hv with
  | null => exact .null
  | bool b => exact .bool b
  | num h => exact .num h
  | str s => exact .str s
  | arr _ ih => exact .arr ih
  | obj _ _ ih => exact .obj ih

/-- A value that is in order stays as it is. -/
theorem Valid.sorted_eq {v : Json} (hv : v.Valid) : v.sorted = v := by
  induction hv with
  | null => rfl
  | bool b => rfl
  | num h => rfl
  | str s => rfl
  | arr _ ih => exact congrArg Json.arr (sortedItems_eq_self ih)
  | obj hsorted _ ih =>
      show Json.obj (Members.ofList (sortedMembers _)) = _
      rw [sortedMembers_eq_self ih, hsorted.ofList_eq]

/-- An object of valid values is valid. -/
theorem object_valid {l : List (String × Json)} (h : ∀ kv ∈ l, kv.2.Valid) :
    (object l).Valid := by
  refine .obj (Members.ofList_sorted l) ?_
  intro kv hkv
  rcases Members.mem_foldl_insert hkv with hl | hnil
  · exact h kv hl
  · exact nomatch hnil

end Json

end Switchboard
