import Switchboard.Handler.Stock
import Switchboard.Proofs.Act
import Switchboard.Proofs.Groundwork
import Switchboard.Proofs.Registration
import Switchboard.Service

/-!
# Keyword calls of struct handlers

A handler that takes a struct is meant to be given each member under its own
name. A keyword call is first read like that. When it cannot be, its values
are laid out in the order of the method's parameter names and read a second
time as if they had been given by position, which is meant for tuples. A struct
is read from an array too, member after member, so the second reading can put a
value into a member of another name, or a `null` that nobody sent into a member
that has to be given.

`StructType.ByKeyword` and `StructType.ByOrder` say what the two readings come
to, and `StructType.bound_by_keyword_iff` says which of them a call gets.
-/

namespace Switchboard

/-! ## Struct types -/

/-- The shape of a member. -/
def Field.shape : Field → Shape
  | .mk _ shape _ => shape

/-- A member of a struct has to be given, unless it is nullable and `null` takes its place. A
    nullable one may still have to be given in an array. -/
def Field.Plain (f : Field) : Prop :=
  f.ifMissing = .refuse ∨ f.isNullable = true ∧ f.ifMissing = .take .null

/-- The type of a struct: any number of members under different names, required or nullable. Only
    nullable members are filled in, and only with `null`. The name is the one that messages use. -/
structure StructType where
  name : String
  fields : List Field
  distinct : (fields.map Field.name).Nodup
  plain : ∀ f ∈ fields, f.Plain

namespace StructType

/-- The shape that a struct is read by. -/
def shape (t : StructType) : Shape := .record t.name t.fields

end StructType

/-- What a member holds after a keyword call: the value under its own name as the member reads it,
    or `null` if the call has no value under this name and the member is nullable. -/
inductive Field.Holds (f : Field) (members : Members) : Json → Prop where
  | given {w v : Json} (hlookup : members.lookup f.name = some w) (hread : f.shape.read w = .ok v) :
      Holds f members v
  | missing (hlookup : members.lookup f.name = none) (hnullable : f.isNullable = true) :
      Holds f members .null

/-- Members read one after the other from the items of an array. Where the array has ended, a
    member is `null` that need not be there. -/
inductive Field.InOrder : List Field → List Json → Members → Prop where
  | nil : InOrder [] [] []
  | given {f : Field} {fields : List Field} {w v : Json} {items : List Json} {bound : Members}
      (hread : f.shape.read w = .ok v) (hrest : InOrder fields items bound) :
      InOrder (f :: fields) (w :: items) ((f.name, v) :: bound)
  | missing {f : Field} {fields : List Field} {bound : Members}
      (hdefault : f.ifMissing = .take .null) (hrest : InOrder fields [] bound) :
      InOrder (f :: fields) [] ((f.name, .null) :: bound)

namespace StructType

/-- A struct that a keyword call binds by keyword: every member holds what the call gives under its
    name. -/
def ByKeyword (t : StructType) (members : Members) (v : Json) : Prop :=
  ∃ bound, v = .obj bound
    ∧ List.Forall₂ (fun f kv => kv.1 = f.name ∧ f.Holds members kv.2) t.fields bound

/-- A struct that a keyword call binds by order: its members hold, one after the other, what the
    call gives under the names of the method's parameters, and `null` for a name that is missing. -/
def ByOrder (t : StructType) (names : List String) (members : Members) (v : Json) : Prop :=
  ∃ bound, v = .obj bound ∧ Field.InOrder t.fields (layOut names members) bound

end StructType

/-! ## Reading from an object -/

namespace Shape

variable {fields : List Field} {members : Members}

/-- What stands under the name of a member is read in the shape of that member. -/
theorem readMember_of_mem (hdistinct : (fields.map Field.name).Nodup) {f : Field} (hf : f ∈ fields)
    (w : Json) :
    readMember fields f.name w = (f.shape.read w).map fun v => some (f.name, v) := by
  induction fields with
  | nil => exact nomatch hf
  | cons g rest ih =>
      obtain ⟨name, shape, ifMissing⟩ := g
      rw [List.map_cons, List.nodup_cons] at hdistinct
      rcases List.mem_cons.mp hf with rfl | hf
      · unfold readMember
        exact if_pos rfl
      · have hne : f.name ≠ name := fun h => hdistinct.1 (List.mem_map.mpr ⟨f, hf, h⟩)
        unfold readMember
        exact (if_neg hne).trans (ih hdistinct.2 hf)

/-- What stands under any other name is passed over. -/
theorem readMember_of_forall_ne {key : String} (h : ∀ f ∈ fields, key ≠ f.name) (w : Json) :
    readMember fields key w = .ok none := by
  induction fields with
  | nil => rfl
  | cons g rest ih =>
      obtain ⟨name, shape, ifMissing⟩ := g
      obtain ⟨hne, hrest⟩ := List.forall_mem_cons.mp h
      unfold readMember
      exact (if_neg hne).trans (ih hrest)

theorem key_of_readMember {key : String} {w : Json} {kv : String × Json}
    (h : readMember fields key w = .ok (some kv)) : kv.1 = key := by
  induction fields with
  | nil => exact nomatch h
  | cons g rest ih =>
      obtain ⟨name, shape, ifMissing⟩ := g
      unfold readMember at h
      by_cases hkey : key = name
      · rw [if_pos hkey] at h
        obtain ⟨v, -, ⟨⟩⟩ := map_eq_ok_iff.mp h
        exact hkey.symm
      · rw [if_neg hkey] at h
        exact ih h

/-- What has been taken for a member is what the member reads of the value under its name. -/
theorem lookup_taken (hdistinct : (fields.map Field.name).Nodup)
    {taken : List (Option (String × Json))}
    (h : List.Forall₂ (fun kv taken? => readMember fields kv.1 kv.2 = .ok taken?) members taken)
    {f : Field} (hf : f ∈ fields) :
    members.lookup f.name = none ∧ (taken.filterMap id).lookup f.name = none
      ∨ ∃ w v, members.lookup f.name = some w ∧ f.shape.read w = .ok v
        ∧ (taken.filterMap id).lookup f.name = some v := by
  induction h with
  | nil => exact Or.inl ⟨rfl, rfl⟩
  | @cons kv taken? rest taken hkv _ ih =>
      obtain ⟨key, w⟩ := kv
      by_cases hkey : f.name = key
      · subst hkey
        rw [readMember_of_mem hdistinct hf] at hkv
        obtain ⟨v, hread, rfl⟩ := map_eq_ok_iff.mp hkv
        exact Or.inr ⟨w, v, List.lookup_cons_self, hread, List.lookup_cons_self⟩
      · -- what has been taken under another key does not hide the member
        have hskip : ((taken? :: taken).filterMap id).lookup f.name
            = (taken.filterMap id).lookup f.name := by
          cases taken? with
          | none => rfl
          | some kv' =>
              obtain rfl : kv'.1 = key := key_of_readMember hkv
              exact lookup_cons_of_ne hkey _
        rw [hskip, lookup_cons_of_ne hkey]
        exact ih

/-- A member of a struct is filled in with what has been taken for it, or with `null` if nothing has
    and the member is nullable. -/
def Fills (given : Members) (f : Field) (v : Json) : Prop :=
  given.lookup f.name = some v ∨ given.lookup f.name = none ∧ f.isNullable = true ∧ v = .null

/-- A member that is filled in goes in front of what the others come to. -/
theorem completeRecord_cons_of_fills {given : Members} {f : Field} {v : Json}
    (hplain : f.Plain) (h : Fills given f v) (rest : List Field) :
    completeRecord given (f :: rest) = (completeRecord given rest).map ((f.name, v) :: ·) := by
  rw [completeRecord]
  rcases h with hsome | ⟨hnone, hnullable, rfl⟩
  · rw [hsome]
    cases completeRecord given rest <;> rfl
  · rw [hnone]
    rcases hplain with hrefuse | ⟨-, htake⟩
    · rw [hrefuse, hnullable]
      cases completeRecord given rest <;> rfl
    · rw [htake]
      cases completeRecord given rest <;> rfl

/-- A member that nothing fills is missing. -/
theorem completeRecord_cons_of_not_fills {given : Members} {f : Field}
    (hplain : f.Plain) (h : ¬ ∃ v, Fills given f v) (rest : List Field) :
    completeRecord given (f :: rest) = .error (.missingMember f.name) := by
  have hnone : given.lookup f.name = none :=
    Option.eq_none_iff_forall_ne_some.mpr fun v hv => h ⟨v, Or.inl hv⟩
  have hrequired : f.isNullable = false :=
    eq_false_of_ne_true fun hnullable => h ⟨.null, Or.inr ⟨hnone, hnullable, rfl⟩⟩
  have hrefuse : f.ifMissing = .refuse :=
    hplain.resolve_right fun htake => nomatch hrequired.symm.trans htake.1
  rw [completeRecord, hnone, hrefuse, hrequired]
  rfl

/-- At most one value fills a member. -/
theorem fills_unique {given : Members} {f : Field} {v w : Json} (hv : Fills given f v)
    (hw : Fills given f w) : v = w := by
  rcases hv with hv | ⟨hv, -, rfl⟩ <;> rcases hw with hw | ⟨hw, -, rfl⟩
  · exact Option.some.inj (hv.symm.trans hw)
  · exact nomatch hv.symm.trans hw
  · exact nomatch hv.symm.trans hw
  · rfl

/-- The members of a struct are completed one by one, in declared order. -/
theorem completeRecord_eq_ok_iff {given bound : Members}
    (hplain : ∀ f ∈ fields, f.Plain) :
    completeRecord given fields = .ok bound
      ↔ List.Forall₂ (fun f kv => kv.1 = f.name ∧ Fills given f kv.2) fields bound := by
  induction fields generalizing bound with
  | nil =>
      rw [List.forall₂_nil_left_iff]
      exact ⟨fun h => (Except.ok.inj h).symm, fun h => congrArg Except.ok h.symm⟩
  | cons f rest ih =>
      obtain ⟨hf, hrest⟩ := List.forall_mem_cons.mp hplain
      rw [List.forall₂_cons_left_iff]
      simp only [← ih hrest]
      by_cases hfills : ∃ v, Fills given f v
      · obtain ⟨v, hv⟩ := hfills
        rw [completeRecord_cons_of_fills hf hv, map_eq_ok_iff]
        constructor
        · rintro ⟨bound', hbound, rfl⟩
          exact ⟨(f.name, v), bound', ⟨rfl, hv⟩, hbound, rfl⟩
        · rintro ⟨⟨name, w⟩, bound', ⟨rfl, hw⟩, hbound, rfl⟩
          obtain rfl : w = v := fills_unique hw hv
          exact ⟨bound', hbound, rfl⟩
      · rw [completeRecord_cons_of_not_fills hf hfills]
        exact ⟨nofun, fun ⟨_, _, hv, _⟩ => absurd ⟨_, hv.2⟩ hfills⟩

/-- What fills a member in is what it holds after the call. -/
theorem fills_iff_holds (hdistinct : (fields.map Field.name).Nodup)
    {taken : List (Option (String × Json))}
    (h : List.Forall₂ (fun kv taken? => readMember fields kv.1 kv.2 = .ok taken?) members taken)
    {f : Field} (hf : f ∈ fields) (v : Json) :
    Fills (taken.filterMap id) f v ↔ f.Holds members v := by
  rcases lookup_taken hdistinct h hf with ⟨hnone, htaken⟩ | ⟨w, w', hsome, hread, htaken⟩
  · constructor
    · rintro (hv | ⟨-, hnullable, rfl⟩)
      · exact nomatch htaken.symm.trans hv
      · exact .missing hnone hnullable
    · rintro (⟨hv, -⟩ | ⟨-, hnullable⟩)
      · exact nomatch hnone.symm.trans hv
      · exact Or.inr ⟨htaken, hnullable, rfl⟩
  · constructor
    · rintro (hv | ⟨hv, -⟩)
      · obtain rfl := Option.some.inj (htaken.symm.trans hv)
        exact .given hsome hread
      · exact nomatch htaken.symm.trans hv
    · rintro (⟨hv, hread'⟩ | ⟨hv, -⟩)
      · obtain rfl := Option.some.inj (hsome.symm.trans hv)
        obtain rfl := Except.ok.inj (hread.symm.trans hread')
        exact Or.inl htaken
      · exact nomatch hsome.symm.trans hv

/-- When a record can read all that stands under the names of its members, an object is read
    through. -/
theorem exists_taken (hdistinct : (fields.map Field.name).Nodup)
    (hkeys : (members.map Prod.fst).Nodup)
    (h : ∀ f ∈ fields, ∀ w, members.lookup f.name = some w → ∃ v, f.shape.read w = .ok v) :
    ∃ taken, List.Forall₂ (fun kv taken? => readMember fields kv.1 kv.2 = .ok taken?)
      members taken := by
  have hread : ∀ kv ∈ members, ∃ taken?, readMember fields kv.1 kv.2 = .ok taken? := by
    rintro ⟨key, w⟩ hkv
    by_cases hkey : ∃ f ∈ fields, f.name = key
    · obtain ⟨f, hf, rfl⟩ := hkey
      obtain ⟨v, hv⟩ := h f hf w ((lookup_eq_some_iff_mem hkeys).mpr hkv)
      exact ⟨_, (readMember_of_mem hdistinct hf w).trans (congrArg _ hv)⟩
    · -- a key of no member is passed over, whatever its value is
      exact ⟨none, readMember_of_forall_ne (fun f hf h => hkey ⟨f, hf, h.symm⟩) w⟩
  clear hkeys h
  induction members with
  | nil => exact ⟨[], .nil⟩
  | cons kv rest ih =>
      obtain ⟨⟨taken?, hkv⟩, hrest⟩ := List.forall_mem_cons.mp hread
      obtain ⟨taken, htaken⟩ := ih hrest
      exact ⟨taken? :: taken, .cons hkv htaken⟩

/-- A record is read from an object exactly if something can be taken for every member of the object
    and what has been taken can be completed. -/
theorem read_record_obj_eq_ok_iff {name : String} {v : Json} :
    (Shape.record name fields).read (.obj members) = .ok v
      ↔ ∃ taken bound,
        List.Forall₂ (fun kv taken? => readMember fields kv.1 kv.2 = .ok taken?) members taken
        ∧ completeRecord (taken.filterMap id) fields = .ok bound ∧ .obj bound = v := by
  have hread : (Shape.record name fields).read (.obj members)
      = members.mapM (fun kv => readMember fields kv.1 kv.2) >>= fun taken =>
        (completeRecord (taken.filterMap id) fields).map .obj := by
    unfold Shape.read
    rfl
  rw [hread, bind_eq_ok_iff]
  simp only [mapM_eq_ok_iff, map_eq_ok_iff]
  constructor
  · rintro ⟨taken, htaken, bound, hbound, hv⟩
    exact ⟨taken, bound, htaken, hbound, hv⟩
  · rintro ⟨taken, bound, htaken, hbound, hv⟩
    exact ⟨taken, htaken, bound, hbound, hv⟩

end Shape

namespace StructType

variable {t : StructType} {members : Members}

/-- A struct is read from an object by keyword. -/
theorem read_obj_eq_ok_iff (hkeys : (members.map Prod.fst).Nodup) {v : Json} :
    t.shape.read (.obj members) = .ok v ↔ t.ByKeyword members v := by
  rw [shape, Shape.read_record_obj_eq_ok_iff]
  constructor
  · rintro ⟨taken, bound, htaken, hbound, rfl⟩
    refine ⟨bound, rfl, ?_⟩
    refine forall₂_imp_of_mem ((Shape.completeRecord_eq_ok_iff t.plain).mp hbound) ?_
    intro f hf kv hkv
    exact ⟨hkv.1, (Shape.fills_iff_holds t.distinct htaken hf kv.2).mp hkv.2⟩
  · rintro ⟨bound, rfl, hbound⟩
    have hheld : ∀ f ∈ t.fields, ∃ v, f.Holds members v :=
      ((List.forall₂_and_left _ _).mp (hbound.imp fun f kv h => ⟨⟨kv.2, h.2⟩, h⟩)).1
    -- a member that holds something holds what has been read under its name
    have hreadable : ∀ f ∈ t.fields, ∀ w, members.lookup f.name = some w →
        ∃ v, f.shape.read w = .ok v := by
      intro f hf w hw
      obtain ⟨v, ⟨hlookup, hv⟩ | ⟨hnone, -⟩⟩ := hheld f hf
      · obtain rfl := Option.some.inj (hw.symm.trans hlookup)
        exact ⟨v, hv⟩
      · exact nomatch hw.symm.trans hnone
    obtain ⟨taken, htaken⟩ := Shape.exists_taken t.distinct hkeys hreadable
    refine ⟨taken, bound, htaken, ?_, rfl⟩
    refine (Shape.completeRecord_eq_ok_iff t.plain).mpr (forall₂_imp_of_mem hbound ?_)
    intro f hf kv hkv
    exact ⟨hkv.1, (Shape.fills_iff_holds t.distinct htaken hf kv.2).mpr hkv.2⟩

end StructType

/-! ## Reading from an array -/

/-- The members of a struct are read from an array one after the other. -/
theorem Shape.readFields_eq_ok_iff {fields : List Field} (hplain : ∀ f ∈ fields, f.Plain)
    (wording : String) (position : ℕ) {items : List Json} {bound : Members} :
    readFields fields wording position items = .ok bound ↔ Field.InOrder fields items bound := by
  induction fields generalizing position items bound with
  | nil =>
      cases items with
      | nil =>
          constructor
          · intro h
            obtain rfl : [] = bound := Except.ok.inj h
            exact .nil
          · rintro ⟨⟩
            rfl
      | cons w rest => exact ⟨nofun, nofun⟩
  | cons f rest ih =>
      obtain ⟨name, shape, ifMissing⟩ := f
      obtain ⟨hf, hrest⟩ := List.forall_mem_cons.mp hplain
      -- the array goes on or has ended, and past its end only the default counts
      cases items with
      | nil =>
          rcases hf with hrefuse | ⟨-, htake⟩
          · obtain rfl : ifMissing = .refuse := hrefuse
            exact ⟨nofun, fun h => nomatch h⟩
          · obtain rfl : ifMissing = .take .null := htake
            show (readFields rest wording (position + 1) []).map ((name, Json.null) :: ·)
              = .ok bound ↔ _
            rw [map_eq_ok_iff]
            simp only [ih hrest]
            constructor
            · rintro ⟨bound', hbound, rfl⟩
              exact .missing rfl hbound
            · rintro (_ | _ | ⟨-, hbound⟩)
              exact ⟨_, hbound, rfl⟩
      | cons w items =>
          have hstep : readFields (.mk name shape ifMissing :: rest) wording position (w :: items)
              = shape.read w >>= fun v =>
                (readFields rest wording (position + 1) items).map ((name, v) :: ·) := by
            rw [readFields]
            rfl
          rw [hstep, bind_eq_ok_iff]
          simp only [map_eq_ok_iff, ih hrest]
          constructor
          · rintro ⟨v, hread, bound', hbound, rfl⟩
            exact .given hread hbound
          · rintro (_ | ⟨hread, hbound⟩ | _)
            exact ⟨_, hread, _, hbound, rfl⟩

namespace StructType

variable {t : StructType} {names : List String} {members : Members}

/-- A struct is read from an array exactly if its members are read from the items in order. -/
theorem read_arr_eq_ok_iff {items : List Json} {v : Json} :
    t.shape.read (.arr items) = .ok v
      ↔ ∃ bound, v = .obj bound ∧ Field.InOrder t.fields items bound := by
  have hread : t.shape.read (.arr items)
      = (Shape.readFields t.fields (Shape.recordWording t.name t.fields.length) 0 items).map
          .obj := by
    unfold shape Shape.read
    rfl
  rw [hread, map_eq_ok_iff]
  simp only [Shape.readFields_eq_ok_iff t.plain]
  exact exists_congr fun bound => and_comm.trans (and_congr_left' eq_comm)

/-- What is laid out by the names of the parameters is bound by order. -/
theorem read_layOut_eq_ok_iff {v : Json} :
    t.shape.read (.arr (layOut names members)) = .ok v ↔ t.ByOrder names members v :=
  read_arr_eq_ok_iff

/-! ## Keyword calls -/

/-- A keyword call binds by keyword if it can, and otherwise by order if it can. -/
theorem bindParams_eq_ok_iff (hnames : names ≠ []) (hkeys : (members.map Prod.fst).Nodup)
    {v : Json} :
    bindParams t.shape names (.named members) = .ok v
      ↔ t.ByKeyword members v
        ∨ (¬ ∃ w, t.ByKeyword members w) ∧ t.ByOrder names members v := by
  simp only [← read_obj_eq_ok_iff hkeys, ← read_layOut_eq_ok_iff]
  cases hread : t.shape.read (.obj members) with
  | ok w =>
      rw [bindParams_of_read hread]
      exact ⟨Or.inl, fun h => h.resolve_right fun h => h.1 ⟨w, rfl⟩⟩
  | error m =>
      rw [bindParams_of_mismatch hread hnames]
      exact ⟨fun h => Or.inr ⟨nofun, h⟩, fun h => (h.resolve_left nofun).2⟩

/-- A member that cannot be null and is not given keeps a call from being bound by keyword. -/
theorem not_byKeyword_of_missing {f : Field} (hf : f ∈ t.fields) (hrequired : f.isNullable = false)
    (hmissing : members.lookup f.name = none) : ¬ ∃ v, t.ByKeyword members v := by
  rintro ⟨_, bound, -, hbound⟩
  have hheld : ∀ f ∈ t.fields, ∃ v, f.Holds members v :=
    ((List.forall₂_and_left _ _).mp (hbound.imp fun f kv h => ⟨⟨kv.2, h.2⟩, h⟩)).1
  obtain ⟨v, ⟨hgiven, -⟩ | ⟨-, hnullable⟩⟩ := hheld f hf
  · exact nomatch hmissing.symm.trans hgiven
  · exact nomatch hrequired.symm.trans hnullable

/-- Keyword calls of struct handlers. A call is bound by keyword if the members that it gives make
    up the struct, and by order if they do not but the laid out values do. So calls are bound by
    keyword only, unless one cannot be and its values fit the members in their order; and one that
    leaves out a required member is accepted exactly if its values do. What is bound is what the
    handler is given, and where nothing is the caller is at fault and the state is left alone. -/
theorem bound_by_keyword_iff {σ : Type} (t : StructType) {names : List String} (hnames : names ≠ [])
    {members : Members} (hkeys : (members.map Prod.fst).Nodup) :
    (∀ v, bindParams t.shape names (.named members) = .ok v
        ↔ t.ByKeyword members v
          ∨ (¬ ∃ w, t.ByKeyword members w) ∧ t.ByOrder names members v)
      ∧ ((∀ v, bindParams t.shape names (.named members) = .ok v → t.ByKeyword members v)
        ↔ (∃ w, t.ByKeyword members w) ∨ ¬ ∃ w, t.ByOrder names members w)
      ∧ ((∃ f ∈ t.fields, f.isNullable = false ∧ members.lookup f.name = none) →
        ((∃ v, bindParams t.shape names (.named members) = .ok v)
          ↔ ∃ v, t.ByOrder names members v))
      ∧ ∀ (run : Context → Json → σ → Outcome × σ) (ctx : Context) (st : σ),
        ctx.parameterNames = names →
        (∀ v, bindParams t.shape names (.named members) = .ok v →
            Handler.typed t.shape run ctx (.named members) st = run ctx v st)
          ∧ ((¬ ∃ v, bindParams t.shape names (.named members) = .ok v) →
            ∃ reason, Handler.typed t.shape run ctx (.named members) st
              = (.fault (.invalidParams reason), st)) := by
  have hbind := fun v => bindParams_eq_ok_iff (t := t) hnames hkeys (v := v)
  refine ⟨hbind, ?_, ?_, ?_⟩
  · simp only [hbind]
    constructor
    · intro h
      by_cases hkeyword : ∃ w, t.ByKeyword members w
      · exact Or.inl hkeyword
      · exact Or.inr fun ⟨w, hw⟩ => hkeyword ⟨w, h w (Or.inr ⟨hkeyword, hw⟩)⟩
    · rintro (hkeyword | hnone) v (hv | ⟨hnot, hv⟩)
      · exact hv
      · exact absurd hkeyword hnot
      · exact hv
      · exact absurd ⟨v, hv⟩ hnone
  · -- a required member that is missing leaves only binding by order
    rintro ⟨f, hf, hrequired, hmissing⟩
    have hnot := not_byKeyword_of_missing hf hrequired hmissing
    simp only [hbind]
    exact exists_congr fun v =>
      ⟨fun h => (h.resolve_left fun hv => hnot ⟨v, hv⟩).2, fun h => Or.inr ⟨hnot, h⟩⟩
  · rintro run ctx st rfl
    constructor
    · intro v hv
      exact Handler.typed_of_bound run hv st
    · intro hnone
      cases hread : bindParams t.shape ctx.parameterNames (.named members) with
      | ok v => exact absurd ⟨v, hread⟩ hnone
      | error m => exact ⟨_, Handler.typed_of_mismatch run hread st⟩

end StructType

/-- The struct with one text. -/
def echoType : StructType where
  name := "Echo"
  fields := [.mk "string" .text .refuse]
  distinct := by decide
  plain := by
    intro f hf
    obtain rfl := List.mem_singleton.mp hf
    exact Or.inl rfl

/-- A call with the member under its own name, and with a value under another one that is in the way
    of nothing. -/
theorem echo_bound_by_own_name :
    ["x"] ≠ [] ∧ [("string", Json.str "hi"), ("x", .num (.int 1))].map Prod.fst = ["string", "x"]
      ∧ (∃ v, bindParams echoType.shape ["x"] (.named [("string", .str "hi"), ("x", .num (.int 1))])
          = .ok v)
      ∧ ∀ v, bindParams echoType.shape ["x"] (.named [("string", .str "hi"), ("x", .num (.int 1))])
          = .ok v →
        echoType.ByKeyword [("string", .str "hi"), ("x", .num (.int 1))] v := by
  have hkeyword : echoType.ByKeyword [("string", .str "hi"), ("x", .num (.int 1))]
      (.obj [("string", .str "hi")]) :=
    ⟨_, rfl, .cons ⟨rfl, .given rfl rfl⟩ .nil⟩
  obtain ⟨hbind, honly, -⟩ := @StructType.bound_by_keyword_iff Unit echoType ["x"] (by decide)
    [("string", .str "hi"), ("x", .num (.int 1))] (by decide)
  exact ⟨by decide, rfl, ⟨_, (hbind _).mpr (Or.inl hkeyword)⟩, honly.mpr (Or.inl ⟨_, hkeyword⟩)⟩

/-- A service with a method whose handler takes that struct, while its parameter has another
    name. -/
def echoService : Service Unit where
  table := .ofRegistrations [⟨"m(x=str)", Stock.echo.handler, {}⟩]

/-- The only member of the struct is given a value that was sent under another name, and the caller
    is told no error. -/
theorem echo_bound_by_other_name :
    bindParams echoType.shape ["x"] (.named [("x", .str "hi")]) = .ok (.obj [("string", .str "hi")])
      ∧ (¬ ∃ v, echoType.ByKeyword [("x", .str "hi")] v)
      ∧ (echoService.answerText ("\x7b\"jsonrpc\":\"2.0\",\"method\":\"m\"," ++
          "\"params\":\x7b\"x\":\"hi\"\x7d,\"id\":1\x7d").toUTF8 false).value ()
        = "\x7b\"jsonrpc\":\"2.0\",\"result\":\"hi\",\"id\":1\x7d" := by
  refine ⟨rfl, ?_, by decide +kernel⟩
  exact StructType.not_byKeyword_of_missing (List.mem_singleton_self _) rfl rfl

/-! ## Members in the order of the names -/

theorem Field.read_null_of_isNullable {f : Field} (h : f.isNullable = true) :
    f.shape.read .null = .ok .null := by
  obtain ⟨name, shape, ifMissing⟩ := f
  cases shape with
  | nullable inner =>
      show Shape.read (.nullable inner) .null = .ok .null
      rw [Shape.read]
  | any | text | truth | unit | float | integer _ | list _ | map _ | tuple _ | record _ _
  | container _ => exact nomatch h

/-- Laid out under the names of the members, values in order are values by name, if `null` is read
    by nullable members only. -/
theorem Field.InOrder.holds {members : Members} {fields : List Field}
    (hnull : ∀ f ∈ fields, f.isNullable = false → ∀ v, f.shape.read .null ≠ .ok v) {bound : Members}
    (h : InOrder fields (layOut (fields.map Field.name) members) bound) :
    List.Forall₂ (fun f kv => kv.1 = f.name ∧ f.Holds members kv.2) fields bound := by
  induction fields generalizing bound with
  | nil =>
      cases h
      exact .nil
  | cons f rest ih =>
      obtain ⟨hf, hrest⟩ := List.forall_mem_cons.mp hnull
      obtain _ | ⟨hread, hbound⟩ | _ := h
      refine .cons ⟨rfl, ?_⟩ (ih hrest hbound)
      dsimp only at hread ⊢
      cases hlookup : members.lookup f.name with
      | some w =>
          rw [hlookup] at hread
          exact .given hlookup hread
      | none =>
          rw [hlookup, Option.getD_none] at hread
          -- nothing was sent, so the member has read a null that only a nullable one reads
          cases hnullable : f.isNullable with
          | true =>
              rw [Field.read_null_of_isNullable hnullable] at hread
              obtain rfl := Except.ok.inj hread
              exact .missing hlookup hnullable
          | false => exact absurd hread (hf hnullable _)

/-- A struct whose members have the names of the parameters, in their order, and of which no
    required one takes a `null`, is bound by keyword in every keyword call. -/
theorem StructType.bound_by_keyword_of_own_order {t : StructType} {members : Members}
    (hkeys : (members.map Prod.fst).Nodup)
    (hnull : ∀ f ∈ t.fields, f.isNullable = false → ∀ v, f.shape.read .null ≠ .ok v) {v : Json}
    (h : bindParams t.shape (t.fields.map Field.name) (.named members) = .ok v) :
    t.ByKeyword members v := by
  by_cases hnames : t.fields.map Field.name = []
  · rw [hnames] at h
    exact (read_obj_eq_ok_iff hkeys).mp h
  · rcases (bindParams_eq_ok_iff hnames hkeys).mp h with hkeyword | ⟨-, bound, rfl, hbound⟩
    · exact hkeyword
    · exact ⟨bound, rfl, hbound.holds hnull⟩

end Switchboard
