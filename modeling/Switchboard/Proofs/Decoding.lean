import Switchboard.Proofs.Binding
import Switchboard.Proofs.Reading
import Switchboard.Proofs.Responses

/-!
# Which objects are responses

A response is read by its shape and then settled: of a result and an error
object it keeps one, and the error object if it has both. This says which
objects that lets through, member by member. `Response.MadeOf` speaks only of
what stands under the four keys of a response; `null` counts as a result, but
neither as an error object nor as the text of a version.

What is let through has exactly one of result and error object, so a client
that asks for the result of a response without an error object always finds one.
-/

namespace Switchboard

/-! ## Members that need not be there -/

/-- What comes of a key under which there need not be anything: nothing if there is no member or it
    is `null`, and otherwise something that the value stands for. -/
inductive Members.Optional {α : Type} (members : Members) (key : String) (R : Json → α → Prop) :
    Option α → Prop where
  | absent (h : members.lookup key = none) : Optional members key R none
  | null (h : members.lookup key = some .null) : Optional members key R none
  | given {v : Json} {a : α} (h : members.lookup key = some v) (ha : R v a) :
      Optional members key R (some a)

/-- A key gives one thing only, if values stand for one thing only and `null` for nothing. -/
theorem Members.Optional.unique {α : Type} {members : Members} {key : String}
    {R : Json → α → Prop} (hunique : ∀ v a b, R v a → R v b → a = b) (hnull : ∀ a, ¬ R .null a)
    {a? b? : Option α} (ha : members.Optional key R a?) (hb : members.Optional key R b?) :
    a? = b? := by
  cases ha with
  | absent h =>
      cases hb with
      | absent => rfl
      | null => rfl
      | given h' => exact nomatch h.symm.trans h'
  | null h =>
      cases hb with
      | absent => rfl
      | null => rfl
      | given h' hb =>
          obtain rfl := Option.some.inj (h.symm.trans h')
          exact absurd hb (hnull _)
  | given h ha =>
      cases hb with
      | absent h' => exact nomatch h.symm.trans h'
      | null h' =>
          obtain rfl := Option.some.inj (h.symm.trans h')
          exact absurd ha (hnull _)
      | given h' hb =>
          obtain rfl := Option.some.inj (h.symm.trans h')
          rw [hunique _ _ _ ha hb]

/-- What comes of a key can be taken further where what stands there can be. -/
theorem Members.Optional.bind {α β : Type} {members : Members} {key : String} {R : Json → α → Prop}
    {S : Json → β → Prop} {a? : Option α} (h : members.Optional key R a?) {f : α → Option β}
    (hf : ∀ v, members.lookup key = some v → ∀ a, R v a → ∃ b, f a = some b ∧ S v b) :
    members.Optional key S (a?.bind f) := by
  cases h with
  | absent h => exact .absent h
  | null h => exact .null h
  | given h ha =>
      obtain ⟨b, hb, hv⟩ := hf _ h _ ha
      rw [Option.bind_some, hb]
      exact .given h hv

/-- Something comes of a key if what stands under it is `null` or stands for something. -/
theorem Members.exists_optional_iff {α : Type} {members : Members} {key : String}
    {R : Json → α → Prop} :
    (∃ a?, members.Optional key R a?)
      ↔ ∀ w, members.lookup key = some w → w = .null ∨ ∃ a, R w a := by
  constructor
  · rintro ⟨_, hnone | hnull | ⟨hgiven, ha⟩⟩ w hw
    · exact nomatch hnone.symm.trans hw
    · exact Or.inl (Option.some.inj (hw.symm.trans hnull))
    · obtain rfl := Option.some.inj (hgiven.symm.trans hw)
      exact Or.inr ⟨_, ha⟩
  · intro h
    cases hw : members.lookup key with
    | none => exact ⟨none, .absent hw⟩
    | some w =>
        rcases h w hw with rfl | ⟨a, ha⟩
        · exact ⟨none, .null hw⟩
        · exact ⟨some a, .given hw ha⟩

/-- A value is a text. -/
def Json.IsText (v : Json) (s : String) : Prop := v = .str s

theorem Json.IsText.unique (v : Json) (s s' : String) (h : v.IsText s) (h' : v.IsText s') :
    s = s' :=
  Json.str.inj (h.symm.trans h')

/-! ## Shapes -/

namespace Shape

/-- An integer is read from a whole number within the width, and from nothing else. -/
theorem read_integer_eq_ok_iff {width : Width} {w v : Json} :
    read (.integer width) w = .ok v
      ↔ v = w ∧ ∃ n, w = .num (.int n) ∧ width.holds n = true := by
  constructor
  · intro h
    unfold read at h
    split at h
    case h_1 n =>
        split at h
        case isTrue hn =>
            obtain rfl := Except.ok.inj h
            exact ⟨rfl, n, rfl, hn⟩
        case isFalse => exact nomatch h
    case h_2 => exact nomatch h
  · rintro ⟨rfl, n, rfl, hn⟩
    exact if_pos hn

theorem read_text_eq_ok_iff {w v : Json} : read .text w = .ok v ↔ v = w ∧ ∃ s, w.IsText s := by
  constructor
  · intro h
    unfold read at h
    split at h
    case h_1 s =>
        obtain rfl := Except.ok.inj h
        exact ⟨rfl, s, rfl⟩
    case h_2 => exact nomatch h
  · rintro ⟨rfl, s, rfl⟩
    rfl

/-- A value that is not `null` is read as if it could not be. -/
theorem read_nullable_of_ne {inner : Shape} {w : Json} (h : w ≠ .null) :
    read (.nullable inner) w = inner.read w := by
  rw [read]
  exact h

/-- A member with a value to fall back on is never missing. -/
theorem completeRecord_cons_take (given : Members) {f : Field} {v : Json}
    (hf : f.ifMissing = .take v) (rest : List Field) :
    completeRecord given (f :: rest)
      = (completeRecord given rest).map ((f.name, (given.lookup f.name).getD v) :: ·) := by
  rw [completeRecord, hf]
  cases given.lookup f.name <;> cases completeRecord given rest <;> rfl

/-- A member that may be left out is there exactly if it has been taken. -/
theorem completeRecord_cons_leaveOut (given : Members) {f : Field} (hf : f.ifMissing = .leaveOut)
    (rest : List Field) :
    completeRecord given (f :: rest)
      = (completeRecord given rest).map ((given.lookup f.name).toList.map ((f.name, ·)) ++ ·) := by
  rw [completeRecord, hf]
  cases given.lookup f.name <;> cases completeRecord given rest <;> rfl

theorem exists_of_read_record {name : String} {fields : List Field} {w v : Json}
    (h : read (.record name fields) w = .ok v) : ∃ bound, v = .obj bound := by
  cases w with
  | arr items =>
      rw [read] at h
      obtain ⟨bound, -, hv⟩ := map_eq_ok_iff.mp h
      exact ⟨bound, hv.symm⟩
  | obj members =>
      obtain ⟨_, bound, -, -, hv⟩ := read_record_obj_eq_ok_iff.mp h
      exact ⟨bound, hv.symm⟩
  | null | bool _ | num _ | str _ =>
      unfold read at h
      cases h

section

variable {fields : List Field} {members : Members} {taken : List (Option (String × Json))}
  {key : String} {inner : Shape} {ifMissing : IfMissing}

/-- What is taken of an object for a member of any sort is what stands under its name. -/
theorem lookup_taken_any (hdistinct : (fields.map Field.name).Nodup)
    (htaken : List.Forall₂ (fun kv taken? => readMember fields kv.1 kv.2 = .ok taken?) members taken)
    (hf : .mk key .any ifMissing ∈ fields) :
    taken.reduceOption.lookup key = members.lookup key := by
  rcases lookup_taken hdistinct htaken hf with ⟨hnone, hgiven⟩ | ⟨w, v, hsome, hread, hgiven⟩
  · exact hgiven.trans hnone.symm
  · obtain rfl : w = v := Except.ok.inj hread
    exact hgiven.trans hsome.symm

/-- What is taken for a nullable member is nothing, `null`, or what its shape reads. -/
theorem lookup_taken_nullable (hdistinct : (fields.map Field.name).Nodup)
    (htaken : List.Forall₂ (fun kv taken? => readMember fields kv.1 kv.2 = .ok taken?) members taken)
    (hf : .mk key (.nullable inner) ifMissing ∈ fields)
    (hinner : ∀ w v, inner.read w = .ok v → v.isNull = false) :
    members.Optional key (fun w v => inner.read w = .ok v)
      ((taken.reduceOption.lookup key).filter fun v => !v.isNull) := by
  rcases lookup_taken hdistinct htaken hf with ⟨hnone, hgiven⟩ | ⟨w, v, hsome, hread, hgiven⟩
  · have hgiven : taken.reduceOption.lookup key = none := hgiven
    rw [hgiven]
    exact .absent hnone
  · have hgiven : taken.reduceOption.lookup key = some v := hgiven
    rw [hgiven]
    by_cases hnull : w = .null
    · obtain rfl := hnull
      obtain rfl : .null = v := Except.ok.inj hread
      exact .null hsome
    · have hread : inner.read w = .ok v := (read_nullable_of_ne hnull).symm.trans hread
      rw [Option.filter_some, hinner w v hread]
      exact .given hsome hread

theorem exists_read_nullable {α : Type} {R : Json → α → Prop} {a? : Option α}
    (h : members.Optional key R a?) {w : Json} (hw : members.lookup key = some w)
    (hR : ∀ a, R w a → ∃ v, inner.read w = .ok v) : ∃ v, read (.nullable inner) w = .ok v := by
  by_cases hnull : w = .null
  · obtain rfl := hnull
    exact ⟨.null, by rw [read]⟩
  · rw [read_nullable_of_ne hnull]
    cases h with
    | absent h => cases hw.symm.trans h
    | null h => exact absurd (Option.some.inj (hw.symm.trans h)) hnull
    | given h ha =>
        obtain rfl := Option.some.inj (hw.symm.trans h)
        exact hR _ ha

end

end Shape

/-! ## Error objects -/

namespace ErrorBody

/-- The value of a key unless it is `null`. -/
def dataOf (d? : Option Json) : Option Json := d?.filter fun d => !d.isNull

/-- The values that can be read as error objects: objects with a code of thirty-two bits and a
    message, and arrays with a code, a message and data. Data that are `null` count as absent. -/
inductive ReadFrom : Json → ErrorBody → Prop where
  | object {members : Members} {code : ℤ} {message : String}
      (hcode : members.lookup "code" = some (.num (.int code)))
      (hwidth : Width.signed32.holds code = true)
      (hmessage : members.lookup "message" = some (.str message)) :
      ReadFrom (.obj members) ⟨code, message, dataOf (members.lookup "data")⟩
  | array {code : ℤ} {message : String} (data : Json)
      (hwidth : Width.signed32.holds code = true) :
      ReadFrom (.arr [.num (.int code), .str message, data]) ⟨code, message, dataOf (some data)⟩

/-- At most one error object is read from a value. -/
theorem ReadFrom.unique {v : Json} {e e' : ErrorBody} (h : ReadFrom v e) (h' : ReadFrom v e') :
    e = e' := by
  cases h with
  | object hcode _ hmessage =>
      cases h' with
      | object hcode' _ hmessage' =>
          obtain ⟨⟩ := Option.some.inj (hcode.symm.trans hcode')
          obtain ⟨⟩ := Option.some.inj (hmessage.symm.trans hmessage')
          rfl
  | array =>
      cases h'
      rfl

/-- Error objects as a type of structs. -/
def structType : StructType where
  name := "JsonRpcErrorData"
  fields := fields
  distinct := by decide
  plain := by
    intro f hf
    simp only [fields, List.mem_cons, List.not_mem_nil, or_false] at hf
    rcases hf with rfl | rfl | rfl
    all_goals exact Or.inl rfl

/-- The members of an error object that has been read. -/
def bound (code : ℤ) (message : String) (data : Json) : Members :=
  [("code", .num (.int code)), ("message", .str message), ("data", data)]

theorem ofRecord_bound (code : ℤ) (message : String) (data : Json) :
    ofRecord (.obj (bound code message data)) = ⟨code, message, dataOf (some data)⟩ := rfl

/-- An object is an error object exactly if it has a code within 32 bits and a message. Data that
    are not there are taken for `null`. -/
theorem byKeyword_iff {members : Members} {w : Json} :
    structType.ByKeyword members w ↔ ∃ code message,
      members.lookup "code" = some (.num (.int code)) ∧ Width.signed32.holds code = true
        ∧ members.lookup "message" = some (.str message)
        ∧ w = .obj (bound code message ((members.lookup "data").getD .null)) := by
  constructor
  · rintro ⟨given, rfl, hgiven⟩
    -- the code, the message and the data, in the order in which they are declared
    obtain ⟨⟨_, c⟩, _, ⟨⟨⟩, hcode⟩, hrest, rfl⟩ := List.forall₂_cons_left_iff.mp hgiven
    obtain ⟨⟨_, m⟩, _, ⟨⟨⟩, hmessage⟩, hlast, rfl⟩ := List.forall₂_cons_left_iff.mp hrest
    obtain ⟨⟨_, d⟩, _, ⟨⟨⟩, hdata⟩, ⟨⟩, rfl⟩ := List.forall₂_cons_left_iff.mp hlast
    obtain ⟨hcode, hread⟩ | ⟨-, ⟨⟩⟩ := hcode
    obtain ⟨rfl, code, rfl, hwidth⟩ := Shape.read_integer_eq_ok_iff.mp hread
    obtain ⟨hmessage, hread⟩ | ⟨-, ⟨⟩⟩ := hmessage
    obtain ⟨rfl, message, rfl⟩ := Shape.read_text_eq_ok_iff.mp hread
    have hd : d = (members.lookup "data").getD .null := by
      obtain ⟨hdata, hread⟩ | ⟨hdata, -⟩ := hdata
      · have hsame := Except.ok.inj ((read_data _).symm.trans hread)
        show d = (List.lookup (Field.name (.mk "data" (.nullable .any) .refuse)) members).getD .null
        rw [hdata, Option.getD_some, hsame]
      · show Json.null
          = (List.lookup (Field.name (.mk "data" (.nullable .any) .refuse)) members).getD .null
        rw [hdata, Option.getD_none]
    exact ⟨code, message, hcode, hwidth, hmessage, by rw [hd]; rfl⟩
  · rintro ⟨code, message, hcode, hwidth, hmessage, rfl⟩
    refine ⟨_, rfl, .cons ⟨rfl, .given hcode ?_⟩ (.cons ⟨rfl, .given hmessage ?_⟩
      (.cons ⟨rfl, ?_⟩ .nil))⟩
    · exact Shape.read_integer_eq_ok_iff.mpr ⟨rfl, code, rfl, hwidth⟩
    · exact Shape.read_text_eq_ok_iff.mpr ⟨rfl, message, rfl⟩
    · show Field.Holds (.mk "data" (.nullable .any) .refuse) members
        ((members.lookup "data").getD .null)
      cases hdata : members.lookup "data" with
      | none => exact .missing hdata rfl
      | some d => exact .given hdata (read_data d)

/-- So is an array of a code, a message and data. -/
theorem inOrder_iff {items : List Json} {given : Members} :
    Field.InOrder fields items given ↔ ∃ code message data,
      items = [.num (.int code), .str message, data] ∧ Width.signed32.holds code = true
        ∧ given = bound code message data := by
  constructor
  · rintro (_ | ⟨hcode, hrest⟩ | ⟨⟨⟩, -⟩)
    obtain _ | ⟨hmessage, hrest⟩ | ⟨⟨⟩, -⟩ := hrest
    obtain _ | ⟨hdata, hrest⟩ | ⟨⟨⟩, -⟩ := hrest
    obtain ⟨rfl, code, rfl, hwidth⟩ := Shape.read_integer_eq_ok_iff.mp hcode
    obtain ⟨rfl, message, rfl⟩ := Shape.read_text_eq_ok_iff.mp hmessage
    obtain rfl := Except.ok.inj ((read_data _).symm.trans hdata)
    cases hrest
    exact ⟨code, message, _, rfl, hwidth, rfl⟩
  · rintro ⟨code, message, data, rfl, hwidth, rfl⟩
    exact .given (Shape.read_integer_eq_ok_iff.mpr ⟨rfl, code, rfl, hwidth⟩)
      (.given (Shape.read_text_eq_ok_iff.mpr ⟨rfl, message, rfl⟩) (.given (read_data data) .nil))

/-- Error objects are read from just the values that can be read as ones. -/
theorem read_eq_ok_iff {v : Json} (hv : v.Valid) {e : ErrorBody} :
    read v = .ok e ↔ ReadFrom v e := by
  unfold read
  rw [map_eq_ok_iff]
  cases v with
  | obj members =>
      simp only [show shape = structType.shape from rfl,
        StructType.read_obj_eq_ok_iff hv.nodup_keys, byKeyword_iff]
      constructor
      · rintro ⟨_, ⟨code, message, hcode, hwidth, hmessage, rfl⟩, rfl⟩
        have h := ReadFrom.object hcode hwidth hmessage
        rw [ofRecord_bound]
        cases hdata : members.lookup "data" with
        | none => rwa [hdata] at h
        | some d => rwa [hdata] at h
      · rintro ⟨hcode, hwidth, hmessage⟩
        refine ⟨_, ⟨_, _, hcode, hwidth, hmessage, rfl⟩, ?_⟩
        rw [ofRecord_bound]
        cases members.lookup "data" <;> rfl
  | arr items =>
      simp only [show shape = structType.shape from rfl, StructType.read_arr_eq_ok_iff,
        show structType.fields = fields from rfl, inOrder_iff]
      constructor
      · rintro ⟨_, ⟨_, rfl, code, message, data, rfl, hwidth, rfl⟩, rfl⟩
        exact .array data hwidth
      · rintro (_ | ⟨data, hwidth⟩)
        exact ⟨_, ⟨_, rfl, _, _, data, rfl, hwidth, rfl⟩, rfl⟩
  -- a struct is read from objects and arrays only
  | null | bool | num | str =>
      constructor
      · rintro ⟨w, hw, -⟩
        unfold shape Shape.read at hw
        cases hw
      · rintro ⟨⟩

end ErrorBody

/-! ## Responses -/

namespace Response

/-- The response that is made of what has been taken of an object. -/
def ofTaken (given : Members) : Response where
  tag? := ((given.lookup "jsonrpc").filter fun v => !v.isNull).bind Json.asString?
  result? := given.lookup "result"
  error? := ((given.lookup "error").filter fun v => !v.isNull).bind (some ∘ ErrorBody.ofRecord)
  id := Id.ofJson (Json.ofOption (given.lookup "id"))

/-- What has been taken of an object, completed to a response. -/
def completed (given : Members) : Members :=
  ("jsonrpc", (given.lookup "jsonrpc").getD .null) ::
    ((given.lookup "result").toList.map (("result", ·)) ++
      [("error", (given.lookup "error").getD .null), ("id", (given.lookup "id").getD .null)])

/-- No member of a response has to be given. -/
theorem completeRecord_fields (given : Members) :
    Shape.completeRecord given fields = .ok (completed given) := by
  unfold fields
  rw [Shape.completeRecord_cons_take given rfl, Shape.completeRecord_cons_leaveOut given rfl,
    Shape.completeRecord_cons_take given rfl, Shape.completeRecord_cons_take given rfl]
  rfl

theorem ofRecord_completed (given : Members) :
    ofRecord (.obj (completed given)) = ofTaken given := by
  have htag : ∀ v? : Option Json,
      (v?.getD .null).asString? = (v?.filter fun v => !v.isNull).bind Json.asString? := by
    rintro (_ | _ | _ | _ | _ | _ | _) <;> rfl
  have herror : ∀ v? : Option Json, ((some (v?.getD .null)).filter fun v => !v.isNull)
      = v?.filter fun v => !v.isNull := by
    rintro (_ | _) <;> rfl
  have hid : ∀ v? : Option Json, Json.ofOption (some (v?.getD .null)) = Json.ofOption v? := by
    rintro (_ | _) <;> rfl
  unfold ofTaken
  rw [← htag, ← herror, ← hid (given.lookup "id"), ← Option.map_eq_bind]
  unfold completed
  cases given.lookup "result" with
  | none => rfl
  | some v => rfl

/-- A response is read from an object exactly if every member under one of its keys can be
    taken. -/
theorem read_obj_eq_ok_iff_taken {members : Members} {r : Response} :
    read (.obj members) = .ok r
      ↔ ∃ taken,
        List.Forall₂ (fun kv taken? => Shape.readMember fields kv.1 kv.2 = .ok taken?) members taken
        ∧ ofTaken taken.reduceOption = r := by
  unfold read
  rw [map_eq_ok_iff, show shape = .record "JsonRpcResponse" fields from rfl]
  simp only [Shape.read_record_obj_eq_ok_iff]
  constructor
  · rintro ⟨_, ⟨taken, bound, htaken, hbound, rfl⟩, rfl⟩
    obtain rfl := Except.ok.inj ((completeRecord_fields _).symm.trans hbound)
    exact ⟨taken, htaken, (ofRecord_completed _).symm⟩
  · rintro ⟨taken, htaken, rfl⟩
    exact ⟨_, ⟨taken, _, htaken, completeRecord_fields _, rfl⟩, ofRecord_completed _⟩

theorem fields_distinct : (fields.map Field.name).Nodup := by decide

/-- What is under the four keys of a response makes one up, as it stands. -/
inductive Outlines (members : Members) : Response → Prop where
  | mk {tag? : Option String} {error? : Option ErrorBody}
      (htag : members.Optional "jsonrpc" Json.IsText tag?)
      (herror : members.Optional "error" ErrorBody.ReadFrom error?) :
      Outlines members
        ⟨tag?, members.lookup "result", error?, Id.ofJson (Json.ofOption (members.lookup "id"))⟩

variable {members : Members}

/-- An object makes up at most one response. -/
theorem Outlines.unique {r r' : Response} (h : Outlines members r) (h' : Outlines members r') :
    r = r' := by
  obtain ⟨htag, herror⟩ := h
  obtain ⟨htag', herror'⟩ := h'
  rw [htag.unique Json.IsText.unique nofun htag',
    herror.unique (fun _ _ _ ha hb => ha.unique hb) nofun herror']

/-- What has been taken of an object is what is under its keys. -/
theorem ofTaken_outlines (hvalid : members.Valid) {taken : List (Option (String × Json))}
    (htaken : List.Forall₂ (fun kv taken? => Shape.readMember fields kv.1 kv.2 = .ok taken?)
      members taken) : Outlines members (ofTaken taken.reduceOption) := by
  have htagField : Field.mk "jsonrpc" (.nullable .text) (.take .null) ∈ fields := by simp [fields]
  have hresultField : Field.mk "result" .any .leaveOut ∈ fields := by simp [fields]
  have herrorField : Field.mk "error" (.nullable ErrorBody.shape) (.take .null) ∈ fields := by
    simp [fields]
  have hidField : Field.mk "id" .any (.take .null) ∈ fields := by simp [fields]
  unfold ofTaken
  rw [Shape.lookup_taken_any fields_distinct htaken hresultField,
    Shape.lookup_taken_any fields_distinct htaken hidField]
  refine .mk ?_ ?_
  · refine (Shape.lookup_taken_nullable fields_distinct htaken htagField ?_).bind ?_
    · intro w v hread
      obtain ⟨rfl, s, rfl⟩ := Shape.read_text_eq_ok_iff.mp hread
      rfl
    · intro w _ v hread
      obtain ⟨rfl, s, rfl⟩ := Shape.read_text_eq_ok_iff.mp hread
      exact ⟨s, rfl, rfl⟩
  · refine (Shape.lookup_taken_nullable fields_distinct htaken herrorField ?_).bind ?_
    · intro w v hread
      obtain ⟨bound, rfl⟩ := Shape.exists_of_read_record hread
      rfl
    · intro w hw v hread
      refine ⟨_, rfl, (ErrorBody.read_eq_ok_iff (hvalid.of_lookup hw)).mp ?_⟩
      exact map_eq_ok_iff.mpr ⟨v, hread, rfl⟩

theorem Outlines.exists_taken {r : Response} (h : Outlines members r) (hvalid : members.Valid) :
    ∃ taken, List.Forall₂ (fun kv taken? => Shape.readMember fields kv.1 kv.2 = .ok taken?)
      members taken := by
  obtain ⟨htag, herror⟩ := h
  refine Shape.exists_taken fields_distinct hvalid.keys ?_
  intro f hf w hw
  simp only [fields, List.mem_cons, List.not_mem_nil, or_false] at hf
  -- only the version and the error object have a type that a value can miss
  rcases hf with rfl | rfl | rfl | rfl
  · refine Shape.exists_read_nullable htag hw ?_
    rintro s rfl
    exact ⟨.str s, rfl⟩
  · exact ⟨w, rfl⟩
  · refine Shape.exists_read_nullable herror hw ?_
    intro e he
    obtain ⟨v, hv, -⟩ := map_eq_ok_iff.mp
      ((ErrorBody.read_eq_ok_iff (hvalid.of_lookup hw)).mpr he)
    exact ⟨v, hv⟩
  · exact ⟨w, rfl⟩

/-- An object is read as the response that it outlines. -/
theorem read_obj_eq_ok_iff (hvalid : members.Valid) {r : Response} :
    read (.obj members) = .ok r ↔ Outlines members r := by
  rw [read_obj_eq_ok_iff_taken]
  constructor
  · rintro ⟨taken, htaken, rfl⟩
    exact ofTaken_outlines hvalid htaken
  · intro h
    -- what is read outlines a response as well, and an object outlines only one
    obtain ⟨taken, htaken⟩ := h.exists_taken hvalid
    exact ⟨taken, htaken, (ofTaken_outlines hvalid htaken).unique h⟩

/-! ## Which objects are responses -/

/-- The id of a response, null if there is none. -/
def idOf (members : Members) : Id := Id.ofJson (Json.ofOption (members.lookup "id"))

/-- An object makes up a response: of a failed call, if there is an error object, whatever stands
    beside it, and of one that ended in a result, if there is a result and no error object. -/
inductive MadeOf (members : Members) : Response → Prop where
  | failure {tag? : Option String} {e : ErrorBody}
      (htag : members.Optional "jsonrpc" Json.IsText tag?)
      (herror : members.Optional "error" ErrorBody.ReadFrom (some e)) :
      MadeOf members ⟨tag?, none, some e, idOf members⟩
  | success {tag? : Option String} {result : Json}
      (htag : members.Optional "jsonrpc" Json.IsText tag?)
      (herror : members.Optional "error" ErrorBody.ReadFrom none)
      (hresult : members.lookup "result" = some result) :
      MadeOf members ⟨tag?, some result, none, idOf members⟩

variable {body : ByteArray}

/-- An object that outlines a response is decoded as that one, settled. -/
theorem decode_of_outlines (hbody : Json.ofBytes? body = some (.obj members)) {r : Response}
    (h : Outlines members r) : decode body = r.settle := by
  have hread := (read_obj_eq_ok_iff (Json.valid_of_ofBytes? hbody).members).mpr h
  unfold decode
  rw [hbody]
  dsimp only
  rw [hread]

/-- An object that makes up no response cannot be deserialized. -/
theorem decode_of_not_outlines (hbody : Json.ofBytes? body = some (.obj members))
    (h : ∀ r, ¬ Outlines members r) : ∃ detail, decode body = .error (.serialization detail) := by
  unfold decode
  rw [hbody]
  dsimp only
  cases hread : read (.obj members) with
  | error m => exact ⟨m.message, rfl⟩
  | ok r =>
      exact absurd ((read_obj_eq_ok_iff (Json.valid_of_ofBytes? hbody).members).mp hread) (h r)

/-- All that can come of an object: a response, nothing because it has neither a result nor an error
    object, or a complaint about its type. -/
theorem decode_cases (hbody : Json.ofBytes? body = some (.obj members)) :
    (∃ r, MadeOf members r ∧ decode body = .ok r)
      ∨ (((∃ tag?, members.Optional "jsonrpc" Json.IsText tag?)
          ∧ members.Optional "error" ErrorBody.ReadFrom none ∧ members.lookup "result" = none)
        ∧ ∃ reason, decode body = .error (.invalidRequest reason))
      ∨ ∃ detail, decode body = .error (.serialization detail) := by
  by_cases houtlines : ∃ r, Outlines members r
  · obtain ⟨r, hr⟩ := houtlines
    have hdecode := decode_of_outlines hbody hr
    obtain @⟨tag?, error?, htag, herror⟩ := hr
    cases error? with
    | some e => exact Or.inl ⟨_, .failure htag herror, hdecode⟩
    | none =>
        cases hresult : members.lookup "result" with
        | some result =>
            rw [hresult] at hdecode
            exact Or.inl ⟨_, .success htag herror hresult, hdecode⟩
        | none =>
            rw [hresult] at hdecode
            exact Or.inr (Or.inl ⟨⟨⟨tag?, htag⟩, herror, rfl⟩, _, hdecode⟩)
  · exact Or.inr (Or.inr (decode_of_not_outlines hbody (not_exists.mp houtlines)))

/-- A body is decoded as what has been read of it, settled. -/
theorem decode_eq_ok_iff_settle {v : Json} (hbody : Json.ofBytes? body = some v) {r : Response} :
    decode body = .ok r ↔ ∃ r', read v = .ok r' ∧ r'.settle = .ok r := by
  rw [decode, hbody]
  dsimp only
  cases read v with
  | error m => simp
  | ok r' => simp

/-- What is settled of an outline is what the members make up. -/
theorem exists_settle_iff {r : Response} :
    (∃ r', Outlines members r' ∧ r'.settle = .ok r) ↔ MadeOf members r := by
  constructor
  · rintro ⟨_, @⟨tag?, error?, htag, herror⟩, hsettle⟩
    cases error? with
    | some e =>
        obtain rfl := Except.ok.inj hsettle
        exact .failure htag herror
    | none =>
        cases hresult : members.lookup "result" with
        | none =>
            rw [hresult] at hsettle
            exact nomatch hsettle
        | some result =>
            rw [hresult] at hsettle
            obtain rfl := Except.ok.inj hsettle
            exact .success htag herror hresult
  · rintro (⟨htag, herror⟩ | ⟨htag, herror, hresult⟩)
    · exact ⟨_, ⟨htag, herror⟩, rfl⟩
    · refine ⟨_, ⟨htag, herror⟩, ?_⟩
      rw [hresult]
      rfl

/-- An object is decoded to the response that it makes up. -/
theorem decode_eq_ok_iff (hbody : Json.ofBytes? body = some (.obj members)) {r : Response} :
    decode body = .ok r ↔ MadeOf members r := by
  rw [decode_eq_ok_iff_settle hbody]
  simp only [read_obj_eq_ok_iff (Json.valid_of_ofBytes? hbody).members]
  exact exists_settle_iff

/-- An object cannot be deserialized exactly if its tag is no text or its error is no error
    object. -/
theorem decode_eq_serialization_iff (hbody : Json.ofBytes? body = some (.obj members)) :
    (∃ detail, decode body = .error (.serialization detail))
      ↔ (¬ ∃ tag?, members.Optional "jsonrpc" Json.IsText tag?)
        ∨ ¬ ∃ error?, members.Optional "error" ErrorBody.ReadFrom error? := by
  rw [← not_and_or]
  constructor
  · rintro ⟨detail, hdetail⟩ ⟨⟨tag?, htag⟩, error?, herror⟩
    rw [decode_of_outlines hbody ⟨htag, herror⟩] at hdetail
    unfold settle at hdetail
    split at hdetail
    · exact nomatch hdetail
    · split at hdetail <;> exact nomatch hdetail
  · intro h
    refine decode_of_not_outlines hbody ?_
    rintro _ ⟨htag, herror⟩
    exact h ⟨⟨_, htag⟩, _, herror⟩

/-- An object is refused for what it carries exactly if it can be read and has neither a result nor
    an error. -/
theorem decode_eq_invalidRequest_iff (hbody : Json.ofBytes? body = some (.obj members)) :
    (∃ reason, decode body = .error (.invalidRequest reason))
      ↔ (∃ tag?, members.Optional "jsonrpc" Json.IsText tag?)
        ∧ members.Optional "error" ErrorBody.ReadFrom none ∧ members.lookup "result" = none := by
  constructor
  · rintro ⟨reason, hreason⟩
    rcases decode_cases hbody with ⟨r, -, hr⟩ | ⟨hneither, -⟩ | ⟨detail, hdetail⟩
    · exact nomatch hr.symm.trans hreason
    · exact hneither
    · exact nomatch hdetail.symm.trans hreason
  · rintro ⟨⟨tag?, htag⟩, herror, hresult⟩
    refine ⟨"Response must contain `result` or `error`", ?_⟩
    rw [decode_of_outlines hbody ⟨htag, herror⟩, hresult]
    rfl

/-! ## One of two -/

/-- A response that is settled has exactly one of result and error. -/
theorem one_of_settle {r r' : Response} (h : r.settle = .ok r') :
    r'.result?.isSome = !r'.error?.isSome := by
  unfold settle at h
  split at h
  · rename_i herror
    obtain rfl := Except.ok.inj h
    rw [herror]
    rfl
  · rename_i herror
    split at h
    · rename_i hresult
      obtain rfl := Except.ok.inj h
      rw [hresult, eq_false_of_ne_true herror]
      rfl
    · exact nomatch h

theorem one_of_decode {r : Response} (h : decode body = .ok r) :
    r.result?.isSome = !r.error?.isSome := by
  unfold decode at h
  split at h
  · exact nomatch h
  · split at h
    · exact nomatch h
    · exact one_of_settle h

end Response

/-- An answer means a value exactly if it is a response with that value for a result. -/
theorem Client.meaning_eq_ok_iff {reply : ByteArray} {v : Json} :
    meaning reply = .ok v
      ↔ ∃ r, Response.decode reply = .ok r ∧ r.error? = none ∧ r.result? = some v := by
  unfold meaning
  cases hdecode : Response.decode reply with
  | error f =>
      constructor
      · exact nofun
      · rintro ⟨r, ⟨⟩, -⟩
  | ok r =>
      dsimp only
      have hone := Response.one_of_decode hdecode
      cases herror : r.error? with
      | some e =>
          constructor
          · exact nofun
          · rintro ⟨_, ⟨⟩, hnone, -⟩
            exact nomatch herror.symm.trans hnone
      | none =>
          -- without an error object there is a result, so nothing has to stand in for it
          rw [herror] at hone
          obtain ⟨w, hw⟩ := Option.isSome_iff_exists.mp hone
          rw [hw]
          constructor
          · rintro ⟨⟩
            exact ⟨r, rfl, herror, hw⟩
          · rintro ⟨_, ⟨⟩, -, hv⟩
            exact congrArg Except.ok (Option.some.inj (hw.symm.trans hv))

/-- What a client gives for the result of a call is the result in the answer. -/
theorem Client.result_of_call {σ : Type} {c : Client} {carrier : Carrier σ} {method : String}
    {params : Params} {st : σ} {v : Json}
    (h : ((c.call carrier method params).value st).1 = .ok v) :
    ∃ reply r, (carrier.send (callBody c.version method params c.takeId.1)).value st = .ok reply
      ∧ Response.decode reply = .ok r ∧ r.error? = none ∧ r.result? = some v := by
  cases hcheck : check c.version params with
  | error f =>
      have hcall : (c.call carrier method params).value st = (.error f, c) := by
        unfold call
        rw [Act.value_inside, hcheck]
        rfl
      rw [hcall] at h
      exact nomatch h
  | ok u =>
      rw [(call_eq hcheck carrier method st).1] at h
      cases hsend : (carrier.send (callBody c.version method params c.takeId.1)).value st with
      | error f =>
          rw [hsend] at h
          exact nomatch h
      | ok reply =>
          rw [hsend] at h
          obtain ⟨r, hr⟩ := meaning_eq_ok_iff.mp h
          exact ⟨reply, r, rfl, hr⟩

/-- Decoding, exactly. An object is decoded as the response that it makes up; it is refused for its
    type exactly if the text of its version or its error object cannot be read, and as no response
    exactly if both can be and it has neither a result nor an error object. Whatever is decoded has
    just one of the two. So what a client gives for the result of a call is always a result that
    stood in the answer. -/
theorem Response.decode_exact (body : ByteArray) :
    (∀ members : Members, Json.ofBytes? body = some (.obj members) →
        (∀ r, decode body = .ok r ↔ MadeOf members r)
          ∧ ((∃ detail, decode body = .error (.serialization detail))
            ↔ (¬ ∃ tag?, members.Optional "jsonrpc" Json.IsText tag?)
              ∨ ¬ ∃ error?, members.Optional "error" ErrorBody.ReadFrom error?)
          ∧ ((∃ reason, decode body = .error (.invalidRequest reason))
            ↔ (∃ tag?, members.Optional "jsonrpc" Json.IsText tag?)
              ∧ members.Optional "error" ErrorBody.ReadFrom none
              ∧ members.lookup "result" = none))
      ∧ (∀ r, decode body = .ok r → r.result?.isSome = !r.error?.isSome)
      ∧ ∀ (σ : Type) (c : Client) (carrier : Carrier σ) (method : String) (params : Params) (st : σ)
          (v : Json), ((c.call carrier method params).value st).1 = .ok v →
        ∃ reply r,
          (carrier.send (Client.callBody c.version method params c.takeId.1)).value st = .ok reply
            ∧ decode reply = .ok r ∧ r.error? = none ∧ r.result? = some v := by
  refine ⟨?_, ?_, ?_⟩
  · intro members hbody
    exact ⟨fun r => decode_eq_ok_iff hbody, decode_eq_serialization_iff hbody,
      decode_eq_invalidRequest_iff hbody⟩
  · intro r h
    exact one_of_decode h
  · intro σ c carrier method params st v h
    exact Client.result_of_call h

/-- An answer with a result and with an error object that is written as an array. -/
def answerWithBoth : ByteArray :=
  "\x7b\"result\":1,\"error\":[5,\"no\",null]\x7d".toUTF8

/-- An answer with a result that is null and no error object. -/
def answerWithNulls : ByteArray :=
  "\x7b\"id\":7,\"result\":null,\"error\":null\x7d".toUTF8

/-- An answer whose version is no text. -/
def answerOfTwo : ByteArray := "\x7b\"jsonrpc\":2,\"result\":1\x7d".toUTF8

/-- The error object wins over the result, the null result is one, also for a client that is
    answered with it, and the number is refused. -/
theorem odd_answers_decoded :
    Json.ofBytes? answerWithBoth = some (.obj [("error", .arr [.num (.int 5), .str "no", .null]),
        ("result", .num (.int 1))])
      ∧ Response.decode answerWithBoth = .ok ⟨none, none, some ⟨5, "no", none⟩, .null⟩
      ∧ Json.ofBytes? answerWithNulls = some (.obj [("error", .null), ("id", .num (.int 7)),
        ("result", .null)])
      ∧ Response.decode answerWithNulls = .ok ⟨none, some .null, none, .number (.int 7)⟩
      ∧ Json.ofBytes? answerOfTwo = some (.obj [("jsonrpc", .num (.int 2)),
        ("result", .num (.int 1))])
      ∧ (∃ detail, Response.decode answerOfTwo = .error (.serialization detail))
      ∧ ((Client.call {} Carrier.scripted "m" (.positional [])).value [.ok answerWithNulls]).1
        = .ok .null
      ∧ ∃ reply r, Response.decode reply = .ok r ∧ r.error? = none ∧ r.result? = some .null := by
  have hboth : Json.ofBytes? answerWithBoth = some (.obj [("error",
      .arr [.num (.int 5), .str "no", .null]), ("result", .num (.int 1))]) := by decide +kernel
  have hnulls : Json.ofBytes? answerWithNulls = some (.obj [("error", .null),
      ("id", .num (.int 7)), ("result", .null)]) := by decide +kernel
  have htwo : Json.ofBytes? answerOfTwo = some (.obj [("jsonrpc", .num (.int 2)),
      ("result", .num (.int 1))]) := by decide +kernel
  obtain ⟨hbothExact, -, -⟩ := Response.decode_exact answerWithBoth
  obtain ⟨hnullsExact, -, hclient⟩ := Response.decode_exact answerWithNulls
  obtain ⟨htwoExact, -, -⟩ := Response.decode_exact answerOfTwo
  have hcall : ((Client.call {} Carrier.scripted "m" (.positional [])).value
      [.ok answerWithNulls]).1 = .ok .null := by decide +kernel
  obtain ⟨reply, r, -, hdecode, herror, hresult⟩ := hclient _ _ _ _ _ _ _ hcall
  refine ⟨hboth, ((hbothExact _ hboth).1 _).mpr ?_, hnulls, ((hnullsExact _ hnulls).1 _).mpr ?_,
    htwo, (htwoExact _ htwo).2.1.mpr (Or.inl ?_), hcall, reply, r, hdecode, herror, hresult⟩
  · exact .failure (.absent rfl) (.given rfl (.array .null rfl))
  · exact .success (.absent rfl) (.null rfl) rfl
  · rintro ⟨_, h | h | ⟨h, ⟨⟩⟩⟩
    · exact nomatch h
    · exact nomatch h
    · exact nomatch h

end Switchboard
