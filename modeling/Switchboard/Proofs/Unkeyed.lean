import Switchboard.Proofs.Decoding

/-!
# Responses without keys

A response is an object, and it says under a key whether it carries a result or
an error object. It is read by the shape of a record, though, and a record of
which no member is required takes an array for the object that names its items
in declared order (`Shape.read_arr_record_eq`). So an array that lists a
version and a result, and perhaps an error object and an id behind them, is
taken for a response although no key in it says so, and a client passes on what
stands in it. `Response.unkeyed_decoded_iff` says of which values other than
objects this is true.
-/

namespace Switchboard

/-! ## Records from arrays -/

namespace Shape

variable {fields : List Field} {items : List Json}

/-- A struct is completed from what is under its own names. -/
theorem completeRecord_congr {given given' : Members}
    (h : ∀ f ∈ fields, given.lookup f.name = given'.lookup f.name) :
    completeRecord given fields = completeRecord given' fields := by
  induction fields with
  | nil => rfl
  | cons f rest ih =>
      obtain ⟨hf, hrest⟩ := List.forall_mem_cons.mp h
      rw [completeRecord, completeRecord, hf, ih hrest]

theorem completeRecord_cons_given {f : Field} {rest : List Field}
    (hnew : f.name ∉ rest.map Field.name) (v : Json) (given : Members) :
    completeRecord ((f.name, v) :: given) (f :: rest)
      = (completeRecord given rest).map ((f.name, v) :: ·) := by
  have hlater : completeRecord ((f.name, v) :: given) rest = completeRecord given rest := by
    refine completeRecord_congr ?_
    intro g hg
    refine lookup_cons_of_ne ?_ given
    intro hsame
    exact hnew (List.mem_map.mpr ⟨g, hg, hsame⟩)
  rw [completeRecord, hlater, List.lookup_cons_self]
  cases completeRecord given rest <;> rfl

/-- Past the end of an array a record without required members is completed like any other. -/
theorem readFields_nil (hoptional : ∀ f ∈ fields, f.ifMissing ≠ .refuse) (wording : String)
    (position : ℕ) : readFields fields wording position [] = completeRecord [] fields := by
  induction fields generalizing position with
  | nil => rfl
  | cons f rest ih =>
      obtain ⟨hf, hrest⟩ := List.forall_mem_cons.mp hoptional
      obtain ⟨name, shape, ifMissing⟩ := f
      cases ifMissing with
      | refuse => exact absurd rfl hf
      | take v =>
          rw [completeRecord_cons_take [] rfl, ← ih hrest (position + 1), readFields]
          rfl
      | leaveOut =>
          rw [completeRecord_cons_leaveOut [] rfl, ← ih hrest (position + 1), readFields]
          cases readFields rest wording (position + 1) [] <;> rfl

/-- The values that members read of the items in their places. -/
def readEach (fields : List Field) (items : List Json) : Except Mismatch (List Json) :=
  (fields.zip items).mapM fun fw => fw.1.shape.read fw.2

theorem readEach_cons (f : Field) (rest : List Field) (w : Json) (items : List Json) :
    readEach (f :: rest) (w :: items)
      = f.shape.read w >>= fun v => (readEach rest items).map (v :: ·) := by
  rw [readEach, List.zip_cons_cons, List.mapM_cons]
  rfl

/-- The members of a record are read from an array in their places and then completed. -/
theorem readFields_eq (hdistinct : (fields.map Field.name).Nodup)
    (hoptional : ∀ f ∈ fields, f.ifMissing ≠ .refuse) (hlength : items.length ≤ fields.length)
    (wording : String) (position : ℕ) :
    readFields fields wording position items
      = readEach fields items >>= fun values =>
          completeRecord ((fields.map Field.name).zip values) fields := by
  induction fields generalizing items position with
  | nil =>
      obtain rfl := List.length_eq_zero_iff.mp (Nat.le_zero.mp hlength)
      rfl
  | cons f rest ih =>
      cases items with
      | nil =>
          rw [readFields_nil hoptional]
          rfl
      | cons w items =>
          obtain ⟨hnew, hdistinct⟩ := List.nodup_cons.mp hdistinct
          obtain ⟨-, hoptional⟩ := List.forall_mem_cons.mp hoptional
          have hrest := ih hdistinct hoptional (Nat.le_of_succ_le_succ hlength) (position + 1)
          -- one member reads the first item, whatever it may do without
          have hstep : readFields (f :: rest) wording position (w :: items)
              = f.shape.read w >>= fun v =>
                (readFields rest wording (position + 1) items).map ((f.name, v) :: ·) := by
            obtain ⟨name, shape, ifMissing⟩ := f
            rw [readFields]
            rfl
          rw [hstep, hrest, readEach_cons]
          cases f.shape.read w with
          | error m => rfl
          | ok v =>
              cases readEach rest items with
              | error m => rfl
              | ok values => exact (completeRecord_cons_given hnew v _).symm

/-- Items under the names of members are taken as the members read them in their places. -/
theorem mapM_readMember_zip {declared : List Field} (hdistinct : (declared.map Field.name).Nodup)
    (hfields : ∀ f ∈ fields, f ∈ declared) (items : List Json) :
    (((fields.map Field.name).zip items).mapM fun kv => readMember declared kv.1 kv.2)
      = (readEach fields items).map fun values =>
          ((fields.map Field.name).zip values).map some := by
  induction fields generalizing items with
  | nil => rfl
  | cons f rest ih =>
      obtain ⟨hf, hrest⟩ := List.forall_mem_cons.mp hfields
      cases items with
      | nil => rfl
      | cons w items =>
          rw [List.map_cons, List.zip_cons_cons, List.mapM_cons, readMember_of_mem hdistinct hf,
            ih hrest, readEach_cons]
          cases f.shape.read w with
          | error m => rfl
          | ok v => cases readEach rest items <;> rfl

/-- A record of which no member is required takes an array that is no longer than itself for the
    object that names the items in declared order. -/
theorem read_arr_record_eq {name : String} (hdistinct : (fields.map Field.name).Nodup)
    (hoptional : ∀ f ∈ fields, f.ifMissing ≠ .refuse) (hlength : items.length ≤ fields.length) :
    (Shape.record name fields).read (.arr items)
      = (Shape.record name fields).read (.obj ((fields.map Field.name).zip items)) := by
  rw [read, read, readFields_eq hdistinct hoptional hlength,
    mapM_readMember_zip hdistinct fun f hf => hf]
  cases readEach fields items with
  | error m => rfl
  | ok values =>
      show Except.map _ _ = Except.map _ (completeRecord ((List.map some _).filterMap id) fields)
      rw [List.filterMap_map]
      exact congrArg (fun ms => (completeRecord ms fields).map Json.obj)
        List.filterMap_some.symm

/-- A struct is not read from more items than it has members. -/
theorem read_arr_record_of_lt {name : String} (hlength : fields.length < items.length) {v : Json} :
    (Shape.record name fields).read (.arr items) ≠ .ok v := by
  -- the induction is on the members, each of which takes one item at most
  have hfields : ∀ wording position bound,
      readFields fields wording position items ≠ .ok bound := by
    intro wording position bound h
    induction fields generalizing items position bound with
    | nil =>
        obtain ⟨w, rest, rfl⟩ := List.exists_cons_of_length_pos hlength
        rw [readFields] at h
        cases h
    | cons f rest ih =>
        obtain ⟨w, items, rfl⟩ := List.exists_cons_of_length_pos (Nat.zero_lt_of_lt hlength)
        obtain ⟨name, shape, ifMissing⟩ := f
        rw [readFields] at h
        cases hread : shape.read w with
        | error m =>
            rw [hread] at h
            cases h
        | ok v =>
            rw [hread] at h
            obtain ⟨bound', hbound, -⟩ := map_eq_ok_iff.mp h
            exact ih (Nat.lt_of_succ_lt_succ hlength) _ _ hbound
  rw [read]
  intro h
  obtain ⟨bound, hbound, -⟩ := map_eq_ok_iff.mp h
  exact hfields _ _ _ hbound

end Shape

/-! ## Responses from arrays -/

namespace Response

/-- The keys of a response in the order in which an array lists what is under them. -/
def keys : List String := fields.map Field.name

/-- The items of an array under the keys of a response. -/
def keyed (items : List Json) : Members := keys.zip items

/-- A value is an array that lists a response: its items, put under the keys, make one up. -/
def ListedAs (v : Json) (r : Response) : Prop :=
  ∃ items, v = .arr items ∧ items.length ≤ keys.length ∧ MadeOf (keyed items) r

variable {items : List Json} {members : Members} {body : ByteArray} {v : Json}

theorem keyed_valid (h : (Json.arr items).Valid) : (keyed items).Valid := by
  cases h with
  | arr hitems =>
      refine ⟨?_, ?_⟩
      · rw [keyed, List.zip_eq_zip_take_min, List.map_fst_zip (by simp)]
        exact fields_distinct.sublist (List.take_sublist _ _)
      · rintro ⟨key, w⟩ hkv
        exact hitems w (List.of_mem_zip hkv).2

/-- A response is read from items as from an object with these items under its keys. -/
theorem read_arr (hlength : items.length ≤ keys.length) :
    read (.arr items) = read (.obj (keyed items)) := by
  have hoptional : ∀ f ∈ fields, f.ifMissing ≠ .refuse := by
    intro f hf
    simp only [fields, List.mem_cons, List.not_mem_nil, or_false] at hf
    rcases hf with rfl | rfl | rfl | rfl <;> simp [Field.ifMissing]
  rw [read, read]
  exact congrArg (Except.map ofRecord)
    (Shape.read_arr_record_eq fields_distinct hoptional hlength)

/-- It is read exactly if there are not too many items and they make one up. -/
theorem read_arr_eq_ok_iff (h : (Json.arr items).Valid) {r : Response} :
    read (.arr items) = .ok r ↔ items.length ≤ keys.length ∧ Outlines (keyed items) r := by
  by_cases hlength : items.length ≤ keys.length
  · rw [read_arr hlength, read_obj_eq_ok_iff (keyed_valid h)]
    exact (and_iff_right hlength).symm
  · refine iff_of_false ?_ fun hr => hlength hr.1
    intro hread
    obtain ⟨w, hw, -⟩ := map_eq_ok_iff.mp hread
    exact Shape.read_arr_record_of_lt (Nat.lt_of_not_le hlength) hw

/-- A body that is no object is decoded exactly to the response that it lists. -/
theorem decode_eq_ok_iff_listedAs (hbody : Json.ofBytes? body = some v)
    (hv : ∀ members, v ≠ .obj members) {r : Response} : decode body = .ok r ↔ ListedAs v r := by
  rw [decode_eq_ok_iff_settle hbody]
  cases v with
  | obj members => exact absurd rfl (hv members)
  | arr items =>
      simp only [read_arr_eq_ok_iff (Json.valid_of_ofBytes? hbody), and_assoc]
      constructor
      · rintro ⟨r', hlength, houtlines, hsettle⟩
        exact ⟨items, rfl, hlength, exists_settle_iff.mp ⟨r', houtlines, hsettle⟩⟩
      · rintro ⟨_, ⟨⟩, hlength, hmade⟩
        obtain ⟨r', houtlines, hsettle⟩ := exists_settle_iff.mpr hmade
        exact ⟨r', hlength, houtlines, hsettle⟩
  | null | bool _ | num _ | str _ =>
      constructor
      · rintro ⟨r', hread, -⟩
        obtain ⟨w, hw, -⟩ := map_eq_ok_iff.mp hread
        unfold shape Shape.read at hw
        cases hw
      · rintro ⟨_, harr, -⟩
        cases harr

/-- Members make up a response if the version and the error object can be read and there is a result
    or an error object. -/
theorem exists_madeOf_iff :
    (∃ r, MadeOf members r)
      ↔ (∀ w, members.lookup "jsonrpc" = some w → w = .null ∨ ∃ s, w.IsText s)
        ∧ (∀ w, members.lookup "error" = some w → w = .null ∨ ∃ e, ErrorBody.ReadFrom w e)
        ∧ ((∃ w, members.lookup "result" = some w)
          ∨ ∃ e, members.Optional "error" ErrorBody.ReadFrom (some e)) := by
  rw [← Members.exists_optional_iff, ← Members.exists_optional_iff]
  constructor
  · rintro ⟨_, ⟨htag, herror⟩ | ⟨htag, herror, hresult⟩⟩
    · exact ⟨⟨_, htag⟩, ⟨_, herror⟩, Or.inr ⟨_, herror⟩⟩
    · exact ⟨⟨_, htag⟩, ⟨_, herror⟩, Or.inl ⟨_, hresult⟩⟩
  · rintro ⟨⟨tag?, htag⟩, ⟨error?, herror⟩, hcontent⟩
    cases error? with
    | some e => exact ⟨_, .failure htag herror⟩
    | none =>
        rcases hcontent with ⟨w, hresult⟩ | ⟨e, herror⟩
        · exact ⟨_, .success htag herror hresult⟩
        · exact ⟨_, .failure htag herror⟩

/-- An array lists a response exactly if it begins with a version and a result, and an error object
    behind them, if there is anything, is one or null. -/
theorem exists_listedAs_iff :
    (∃ r, ListedAs v r) ↔ ∃ tag result rest, v = .arr (tag :: result :: rest)
      ∧ rest.length ≤ 2 ∧ (tag = .null ∨ ∃ s, tag = .str s)
      ∧ ∀ e, rest.head? = some e → e = .null ∨ ∃ b, ErrorBody.ReadFrom e b := by
  have hlookup : ∀ tag result rest,
      (keyed (tag :: result :: rest)).lookup "jsonrpc" = some tag
        ∧ (keyed (tag :: result :: rest)).lookup "result" = some result
        ∧ (keyed (tag :: result :: rest)).lookup "error" = rest.head? := by
    intro tag result rest
    refine ⟨rfl, rfl, ?_⟩
    cases rest <;> rfl
  constructor
  · rintro ⟨r, items, rfl, hlength, hmade⟩
    obtain ⟨htag, herror, hcontent⟩ := exists_madeOf_iff.mp ⟨r, hmade⟩
    match items with
    | tag :: result :: rest =>
        obtain ⟨htag', -, herror'⟩ := hlookup tag result rest
        rw [herror'] at herror
        have hrest : rest.length + 2 ≤ 2 + 2 := hlength
        exact ⟨tag, result, rest, rfl, Nat.le_of_add_le_add_right hrest, htag tag htag', herror⟩
    | [] | [_] =>
        -- too short for a result, and all the more for an error object
        rcases hcontent with ⟨w, hw⟩ | ⟨e, _ | _ | ⟨hw, -⟩⟩
        · exact nomatch hw
        · exact nomatch hw
  · rintro ⟨tag, result, rest, rfl, hlength, htag, herror⟩
    obtain ⟨htag', hresult, herror'⟩ := hlookup tag result rest
    have hmade : ∃ r, MadeOf (keyed (tag :: result :: rest)) r := by
      refine exists_madeOf_iff.mpr ⟨?_, ?_, Or.inl ⟨result, hresult⟩⟩
      · intro w hw
        obtain rfl := Option.some.inj (htag'.symm.trans hw)
        exact htag
      · rw [herror']
        exact herror
    obtain ⟨r, hr⟩ := hmade
    exact ⟨r, _, rfl, Nat.add_le_add_right hlength 2, hr⟩

/-- An error object that is received is no failure to decode it. -/
theorem decode_ne_remote (e : ErrorBody) : decode body ≠ .error (.remote e) := by
  intro h
  unfold decode at h
  split at h
  · exact nomatch h
  · split at h
    · exact nomatch h
    · unfold settle at h
      split at h
      · exact nomatch h
      · split at h <;> exact nomatch h

end Response

/-- An answer means an error of the other side exactly if it is a response with its error object. -/
theorem Client.meaning_eq_remote_iff {reply : ByteArray} {e : ErrorBody} :
    meaning reply = .error (.remote e)
      ↔ ∃ r, Response.decode reply = .ok r ∧ r.error? = some e := by
  rw [meaning]
  cases hdecode : Response.decode reply with
  | error f =>
      refine iff_of_false ?_ fun ⟨_, hr, _⟩ => nomatch hr
      intro h
      exact Response.decode_ne_remote e (hdecode.trans (congrArg Except.error (Except.error.inj h)))
  | ok r =>
      dsimp only
      cases herror : r.error? with
      | none => simp [herror]
      | some e' => simp [herror]

/-- Values other than objects, decoded. One is decoded as a response exactly if it is an array that
    lists the response, so it is refused exactly if it is not an array that begins with a version
    and a result, with no more behind them than an error object and an id. A client
    that is answered with one reports a result or an error of the other side exactly if the array
    lists it. -/
theorem Response.unkeyed_decoded_iff {body : ByteArray} {v : Json}
    (hbody : Json.ofBytes? body = some v) (hv : ∀ members, v ≠ .obj members) :
    (∀ r, decode body = .ok r ↔ ListedAs v r)
      ∧ ((∃ f, decode body = .error f)
        ↔ ¬ ∃ tag result rest, v = .arr (tag :: result :: rest) ∧ rest.length ≤ 2
          ∧ (tag = .null ∨ ∃ s, tag = .str s)
          ∧ ∀ e, rest.head? = some e → e = .null ∨ ∃ b, ErrorBody.ReadFrom e b)
      ∧ ∀ (σ : Type) (c : Client) (carrier : Carrier σ) (method : String) (params : Params) (st : σ),
        Client.check c.version params = .ok () →
        (carrier.send (Client.callBody c.version method params c.takeId.1)).value st = .ok body →
        (∀ w, ((c.call carrier method params).value st).1 = .ok w
            ↔ ∃ r, ListedAs v r ∧ r.error? = none ∧ r.result? = some w)
          ∧ ∀ e, ((c.call carrier method params).value st).1 = .error (.remote e)
            ↔ ∃ r, ListedAs v r ∧ r.error? = some e := by
  have hdecode : ∀ r, decode body = .ok r ↔ ListedAs v r :=
    fun r => decode_eq_ok_iff_listedAs hbody hv
  refine ⟨hdecode, ?_, ?_⟩
  · rw [← exists_listedAs_iff]
    simp only [← hdecode]
    cases decode body with
    | ok r => simp
    | error f => simp
  · intro σ c carrier method params st hcheck hsend
    rw [(Client.call_eq hcheck carrier method st).1, hsend]
    simp only [← hdecode]
    exact ⟨fun w => Client.meaning_eq_ok_iff, fun e => Client.meaning_eq_remote_iff⟩

/-- An answer that lists a version, a result that is null, no error object and an id. -/
def listedAnswer : ByteArray := "[\"2.0\",null,null,7]".toUTF8

/-- An answer that is a number. -/
def bareAnswer : ByteArray := "7".toUTF8

/-- The list is taken for the response that it lists and its null is reported as a result; the
    number is refused. -/
theorem listed_answer_reported :
    Json.ofBytes? listedAnswer = some (.arr [.str "2.0", .null, .null, .num (.int 7)])
      ∧ (∀ members, Json.arr [.str "2.0", .null, .null, .num (.int 7)] ≠ .obj members)
      ∧ Response.decode listedAnswer = .ok ⟨some "2.0", some .null, none, .number (.int 7)⟩
      ∧ Client.check .v1 (.positional []) = .ok ()
      ∧ (Carrier.scripted.send (Client.callBody .v1 "m" (.positional []) (.ofNat 1))).value
          [.ok listedAnswer] = .ok listedAnswer
      ∧ ((Client.call {} Carrier.scripted "m" (.positional [])).value [.ok listedAnswer]).1
        = .ok .null
      ∧ Json.ofBytes? bareAnswer = some (.num (.int 7))
      ∧ (∀ members, Json.num (.int 7) ≠ .obj members)
      ∧ ∃ f, Response.decode bareAnswer = .error f := by
  have hlisted : Json.ofBytes? listedAnswer = some (.arr [.str "2.0", .null, .null,
      .num (.int 7)]) := by decide +kernel
  have hbare : Json.ofBytes? bareAnswer = some (.num (.int 7)) := by decide +kernel
  have hlists : Response.ListedAs (.arr [.str "2.0", .null, .null, .num (.int 7)])
      ⟨some "2.0", some .null, none, .number (.int 7)⟩ :=
    ⟨_, rfl, by decide, .success (.given rfl rfl) (.null rfl) rfl⟩
  obtain ⟨hdecode, -, hclient⟩ := Response.unkeyed_decoded_iff hlisted nofun
  obtain ⟨hresult, -⟩ :=
    hclient _ {} Carrier.scripted "m" (.positional []) [.ok listedAnswer] rfl rfl
  obtain ⟨-, hrefused, -⟩ := Response.unkeyed_decoded_iff hbare nofun
  exact ⟨hlisted, nofun, (hdecode _).mpr hlists, rfl, rfl,
    (hresult .null).mpr ⟨_, hlists, rfl, rfl⟩, hbare, nofun,
    hrefused.mpr fun ⟨_, _, _, hnone, _⟩ => nomatch hnone⟩

/-- An answer that lists no version and a result. -/
def pairAnswer : ByteArray := "[null,1]".toUTF8

/-- An answer that lists an error object, which is a list itself. -/
def tripleAnswer : ByteArray := "[null,null,[5,\"no\",null]]".toUTF8

/-- Two arrays that are taken for responses, so that a client reports a result and an error of the
    other side that no answer of its server has been an object for. -/
theorem array_taken_for_response :
    Json.ofBytes? pairAnswer = some (.arr [.null, .num (.int 1)])
      ∧ Response.decode pairAnswer = .ok ⟨none, some (.num (.int 1)), none, .null⟩
      ∧ ((Client.call {} Carrier.scripted "m" (.positional [])).value [.ok pairAnswer]).1
        = .ok (.num (.int 1))
      ∧ Json.ofBytes? tripleAnswer
        = some (.arr [.null, .null, .arr [.num (.int 5), .str "no", .null]])
      ∧ ((Client.call {} Carrier.scripted "m" (.positional [])).value [.ok tripleAnswer]).1
        = .error (.remote ⟨5, "no", none⟩)
      ∧ ¬ ∀ (body : ByteArray) (v : Json), Json.ofBytes? body = some v →
          (∀ members, v ≠ .obj members) → ∃ f, Response.decode body = .error f := by
  have hpair : Json.ofBytes? pairAnswer = some (.arr [.null, .num (.int 1)]) := by decide +kernel
  have hdecode : Response.decode pairAnswer = .ok ⟨none, some (.num (.int 1)), none, .null⟩ := by
    decide +kernel
  refine ⟨hpair, hdecode, by decide +kernel, by decide +kernel, by decide +kernel, ?_⟩
  intro hrefused
  obtain ⟨f, hf⟩ := hrefused pairAnswer _ hpair nofun
  exact nomatch hdecode.symm.trans hf

end Switchboard
