import Switchboard.Proofs.Lexing

/-!
# Values that read back

The reader is a machine that takes one token at a time. While it takes the
tokens of a value it leaves the open containers alone, and at the end it hands
them the value, with the members of objects in order: that is `Reads`. It holds
of every value, because a container takes the values inside it one by one.

With what was shown about tokens it follows that a value is read back from its
bytes, as long as no more containers are nested in it than a reader opens
(`Json.ofBytes?_toUTF8`). A value whose objects are in order comes back as it
was.
-/

namespace Switchboard

open Reader

/-- The tokens of a value are taken as that value, sorted, wherever a value may stand and there is
    room for the containers in it. -/
def Reads (v : Json) : Prop :=
  ∀ stack : List Unfinished, stack.length + v.depth ≤ maxDepth →
    (Reader.mk stack .value).run v.tokens = give v.sorted stack

theorem run_single (r : Reader) (t : Token) : r.run [t] = r.step t := by
  unfold run
  cases r.step t <;> rfl

/-- A reader in front of an item does not mind whether it is the first one. -/
theorem run_itemOrEnd (stack : List Unfinished) (v : Json) :
    (Reader.mk stack .itemOrEnd).run v.tokens = (Reader.mk stack .value).run v.tokens := by
  cases v <;> rfl

/-! ## Arrays -/

/-- An item is read and put with the items before it. -/
theorem run_item {v : Json} (hv : Reads v) {done : List Json} {stack : List Unfinished}
    (hdepth : stack.length + 1 + v.depth ≤ maxDepth) (ts : List Token) :
    (Reader.mk (.array done :: stack) .value).run (v.tokens ++ ts)
      = (Reader.mk (.array (v.sorted :: done) :: stack) .separator).run ts := by
  rw [run_append, hv (.array done :: stack) hdepth]
  rfl

/-- The items that follow are read up to the end of the array. -/
theorem run_laterItems {items : List Json} (h : ∀ v ∈ items, Reads v) (done : List Json)
    {stack : List Unfinished} (hdepth : stack.length + 1 + Json.itemsDepth items ≤ maxDepth) :
    (Reader.mk (.array done :: stack) .separator).run (Json.laterItemTokens items)
      = give (.arr (done.reverse ++ Json.sortedItems items)) stack := by
  induction items generalizing done with
  | nil =>
      show _ = give (.arr (done.reverse ++ [])) stack
      rw [List.append_nil]
      exact run_single _ _
  | cons v rest ih =>
      obtain ⟨hv, hrest⟩ := List.forall_mem_cons.mp h
      -- each item finds the room that the deepest of them needs
      have hmax : Json.itemsDepth (v :: rest) = max v.depth (Json.itemsDepth rest) := rfl
      show (Reader.mk (.array done :: stack) .value).run _ = _
      rw [run_item hv (by omega), ih hrest _ (by omega), List.reverse_cons, List.append_assoc]
      rfl

/-- An array is read if its items are. -/
theorem reads_arr {items : List Json} (h : ∀ v ∈ items, Reads v) : Reads (.arr items) := by
  intro stack hdepth
  have hroom : stack.length + (Json.itemsDepth items + 1) ≤ maxDepth := hdepth
  have henter : (Reader.mk stack .value).step .openArray
      = some ⟨.array [] :: stack, .itemOrEnd⟩ := if_pos (show stack.length < maxDepth by omega)
  show (Reader.mk stack .value).run (.openArray :: Json.itemTokens items) = _
  unfold run
  rw [henter]
  dsimp only
  cases items with
  | nil => exact run_single _ _
  | cons v rest =>
      obtain ⟨hv, hrest⟩ := List.forall_mem_cons.mp h
      have hmax : Json.itemsDepth (v :: rest) = max v.depth (Json.itemsDepth rest) := rfl
      show run _ (v.tokens ++ Json.laterItemTokens rest) = _
      rw [run_append, run_itemOrEnd, ← run_append, run_item hv (by omega),
        run_laterItems hrest _ (by omega)]
      rfl

/-! ## Objects -/

/-- A member is read and put with the members before it, in the order of the keys. -/
theorem run_member {v : Json} (hv : Reads v) {done : Members} {stack : List Unfinished}
    (hdepth : stack.length + 1 + v.depth ≤ maxDepth) (key : String) (ts : List Token) :
    (Reader.mk (.object done :: stack) (.colon key)).run (.colon :: (v.tokens ++ ts))
      = (Reader.mk (.object (done.insert key v.sorted) :: stack) .separator).run ts := by
  show (Reader.mk (.member done key :: stack) .value).run (v.tokens ++ ts) = _
  rw [run_append, hv (.member done key :: stack) hdepth]
  rfl

/-- The members that follow are read up to the end of the object. -/
theorem run_laterMembers {members : List (String × Json)} (h : ∀ kv ∈ members, Reads kv.2)
    (done : Members) {stack : List Unfinished}
    (hdepth : stack.length + 1 + Json.membersDepth members ≤ maxDepth) :
    (Reader.mk (.object done :: stack) .separator).run (Json.laterMemberTokens members)
      = give (.obj ((Json.sortedMembers members).foldl (fun (m : Members) kv => m.insert kv.1 kv.2)
          done)) stack := by
  induction members generalizing done with
  | nil => exact run_single _ _
  | cons kv rest ih =>
      obtain ⟨hkv, hrest⟩ := List.forall_mem_cons.mp h
      have hmax : Json.membersDepth (kv :: rest) = max kv.2.depth (Json.membersDepth rest) := rfl
      show (Reader.mk (.object done :: stack) (.colon kv.1)).run _ = _
      rw [run_member hkv (by omega), ih hrest _ (by omega)]
      rfl

/-- An object is read if the values of its members are. -/
theorem reads_obj {members : Members} (h : ∀ kv ∈ members, Reads kv.2) :
    Reads (.obj members) := by
  intro stack hdepth
  have hroom : stack.length + (Json.membersDepth members + 1) ≤ maxDepth := hdepth
  have henter : (Reader.mk stack .value).step .openObject
      = some ⟨.object [] :: stack, .keyOrEnd⟩ := if_pos (show stack.length < maxDepth by omega)
  show (Reader.mk stack .value).run (.openObject :: Json.memberTokens members) = _
  unfold run
  rw [henter]
  dsimp only
  cases members with
  | nil => exact run_single _ _
  | cons kv rest =>
      obtain ⟨hkv, hrest⟩ := List.forall_mem_cons.mp h
      have hmax : Json.membersDepth (kv :: rest) = max kv.2.depth (Json.membersDepth rest) := rfl
      show (Reader.mk (.object [] :: stack) (.colon kv.1)).run _ = _
      rw [run_member hkv (by omega), run_laterMembers hrest _ (by omega)]
      rfl

/-! ## Values -/

/-- Every value is taken as it is, sorted. -/
theorem reads (v : Json) : Reads v := by
  induction v using Json.induct with
  | null => exact fun stack _ => run_single _ _
  | bool b => exact fun stack _ => run_single _ _
  | num n => exact fun stack _ => run_single _ _
  | str s => exact fun stack _ => run_single _ _
  | arr items ih => exact reads_arr ih
  | obj members ih => exact reads_obj ih

namespace Json

/-- A value is read back from its bytes, with the members of its objects in order. -/
theorem Sound.ofBytes?_toUTF8 {v : Json} (hv : v.Sound) (hdepth : v.depth ≤ maxDepth) :
    ofBytes? v.render.toUTF8 = some v.sorted := by
  have hutf8 : String.fromUTF8? v.render.toUTF8 = some v.render :=
    dif_pos v.render.isValidUTF8
  have htokens : ofTokens? v.tokens = some v.sorted := by
    unfold ofTokens? start
    rw [reads v [] (by simpa using hdepth)]
    rfl
  unfold ofBytes? parse?
  rw [hutf8, Option.bind_some, render, String.toList_ofList, hv.lex_tokens, Option.bind_some,
    htokens]

/-- A value that is in order is read back as it was. -/
theorem Valid.ofBytes?_toUTF8 {v : Json} (hv : v.Valid) (hdepth : v.depth ≤ maxDepth) :
    ofBytes? v.render.toUTF8 = some v := by
  rw [hv.sound.ofBytes?_toUTF8 hdepth, hv.sorted_eq]

/-- An object is read back from its bytes with its members in order, however they are written. -/
theorem ofBytes?_obj {written read : Members} (hsound : ∀ kv ∈ written, kv.2.Sound)
    (hread : read.Sorted) (hperm : (sortedMembers written).Perm read)
    (hdepth : (Json.obj written).depth ≤ maxDepth) :
    ofBytes? (Json.obj written).render.toUTF8 = some (.obj read) := by
  rw [(Sound.obj hsound).ofBytes?_toUTF8 hdepth, sorted_obj hread hperm]

end Json

end Switchboard
