import Switchboard.Proofs.Requests

/-!
# Responses, from a server to a client

A client reads a response by its shape, which fills in what is absent, and
then sees which of result and error object it has. What it makes of a response
that a server wrote is what the server put in: a result, `null` included, or
an error object. An error object comes back as it was unless its data are
present and `null`, which cannot be told from absent data
(`Response.decode_encode_iff`).
-/

namespace Switchboard

/-! ## Records -/

/-- A member of an object is taken as a member of a record. -/
def Shape.Takes (fields : List Field) (kv kv' : String × Json) : Prop :=
  readMember fields kv.1 kv.2 = .ok (some kv')

/-- A record is read member by member and then completed. -/
theorem Shape.read_record (name : String) {fields : List Field} {members given : Members}
    (h : List.Forall₂ (Takes fields) members given) :
    (Shape.record name fields).read (.obj members) = (completeRecord given fields).map .obj := by
  have hmembers : (members.mapM fun kv => readMember fields kv.1 kv.2)
      = .ok (given.map some) := by
    induction h with
    | nil => rfl
    | cons hkv _ ih =>
        rw [List.mapM_cons, hkv, ih]
        rfl
  unfold Shape.read
  dsimp only
  rw [hmembers]
  show (completeRecord ((given.map some).filterMap id) fields).map Json.obj = _
  rw [List.filterMap_map]
  exact congrArg (fun ms => (completeRecord ms fields).map Json.obj) List.filterMap_some

/-! ## Error objects -/

/-- An error object as programs have it: its code is an integer of thirty-two bits and its data
    are in order. -/
structure ErrorBody.Valid (e : ErrorBody) : Prop where
  code : Width.signed32.holds e.code = true
  data : ∀ d, e.data? = some d → d.Valid

namespace ErrorBody

/-- The members of an error object in the order in which they are read. -/
def inOrder (e : ErrorBody) : Members :=
  ("code", .num (.int e.code)) :: (e.data?.toList.map (fun d => ("data", d)) ++
    [("message", .str e.message)])

/-- The members of an error object in the order in which its shape declares them. -/
def declared (e : ErrorBody) : Members :=
  [("code", .num (.int e.code)), ("message", .str e.message), ("data", Json.ofOption e.data?)]

theorem inOrder_sorted (e : ErrorBody) : e.inOrder.Sorted := by
  obtain ⟨code, message, data?⟩ := e
  refine Members.sorted_of_keys ?_
  cases data? with
  | none => show List.Pairwise _ ["code", "message"]; decide
  | some d => show List.Pairwise _ ["code", "data", "message"]; decide

theorem Valid.isExact {e : ErrorBody} (he : e.Valid) : Number.isExact e.code = true := by
  have hcode := he.code
  unfold Width.holds at hcode
  unfold Number.isExact
  simp only [Bool.and_eq_true, decide_eq_true_iff] at hcode ⊢
  omega

/-- A valid error object is sent as a valid value. -/
theorem Valid.inOrder {e : ErrorBody} (he : e.Valid) : (Json.obj e.inOrder).Valid := by
  refine .obj e.inOrder_sorted ?_
  have hcode : (Json.num (.int e.code)).Valid := .num he.isExact
  obtain ⟨code, message, data?⟩ := e
  have hmessage := Json.Valid.str message
  cases data? with
  | none => simpa [ErrorBody.inOrder] using ⟨hcode, hmessage⟩
  | some d => simpa [ErrorBody.inOrder] using ⟨hcode, he.data d rfl, hmessage⟩

/-- An error object is written with the members that it is read with. -/
theorem Valid.toJson_perm {e : ErrorBody} (he : e.Valid) :
    ∃ written : Members, e.toJson = .obj written ∧ written.Perm e.inOrder := by
  have hcode : Json.ofInt e.code = .num (.int e.code) := by
    unfold Json.ofInt Number.ofInt?
    rw [if_pos he.isExact]
    rfl
  refine ⟨_, rfl, ?_⟩
  rw [hcode]
  refine List.Perm.cons _ ?_
  show List.Perm ([_] ++ _) _
  exact List.perm_append_comm

/-- An error object comes back as it was written. -/
theorem Valid.toJson_reads {e : ErrorBody} (he : e.Valid) :
    e.toJson.Sound ∧ e.toJson.sorted = .obj e.inOrder := by
  obtain ⟨written, hwritten, hperm⟩ := he.toJson_perm
  have hvalid : ∀ kv ∈ written, kv.2.Valid := by
    intro kv hkv
    cases he.inOrder with
    | obj _ h => exact h kv (hperm.mem_iff.mp hkv)
  rw [hwritten]
  refine ⟨.obj fun kv hkv => (hvalid kv hkv).sound, ?_⟩
  refine Json.sorted_obj e.inOrder_sorted ?_
  rw [Json.sortedMembers_eq_self fun kv hkv => (hvalid kv hkv).sorted_eq]
  exact hperm

/-- Data of any sort are read as they are, `null` included. -/
theorem read_data (d : Json) : Shape.read (.nullable .any) d = .ok d := by
  cases d with
  | null => rfl
  | bool b => rfl
  | num n => rfl
  | str s => rfl
  | arr items => rfl
  | obj members => rfl

/-- An error object as it is received: data that are `null` count as absent. -/
def received (e : ErrorBody) : ErrorBody :=
  { e with data? := e.data?.filter fun d => !d.isNull }

/-- An error object is received as it is unless its data are `null`. -/
theorem received_eq_iff (e : ErrorBody) : e.received = e ↔ e.data? ≠ some .null := by
  obtain ⟨code, message, data?⟩ := e
  constructor
  · intro hsame hnull
    obtain rfl : data? = some .null := hnull
    exact nomatch congrArg ErrorBody.data? hsame
  · intro hdata
    match data? with
    | none => rfl
    | some .null => exact absurd rfl hdata
    | some (.bool _) | some (.num _) | some (.str _) | some (.arr _) | some (.obj _) => rfl

/-- The members that error objects are read from. -/
def fields : List Field :=
  [.mk "code" (.integer .signed32) .refuse, .mk "message" .text .refuse,
    .mk "data" (.nullable .any) .refuse]

/-- An error object is read by its shape as what it was, but for data that are `null`. -/
theorem read_inOrder {e : ErrorBody} (hcode : Width.signed32.holds e.code = true) :
    shape.read (.obj e.inOrder) = .ok (.obj e.declared)
      ∧ ofRecord (.obj e.declared) = e.received := by
  obtain ⟨code, message, data?⟩ := e
  have hread : Shape.read (.integer .signed32) (.num (.int code)) = .ok (.num (.int code)) :=
    if_pos hcode
  have hfirst : Shape.Takes fields ("code", .num (.int code)) ("code", .num (.int code)) :=
    congrArg (Except.map fun v => some ("code", v)) hread
  have hmessage : Shape.Takes fields ("message", .str message) ("message", .str message) := rfl
  cases data? with
  | none => exact ⟨Shape.read_record _ (.cons hfirst (.cons hmessage .nil)), rfl⟩
  | some d =>
      have hd : Shape.Takes fields ("data", d) ("data", d) :=
        congrArg (Except.map fun v => some ("data", v)) (read_data d)
      exact ⟨Shape.read_record _ (.cons hfirst (.cons hd (.cons hmessage .nil))), rfl⟩

end ErrorBody

/-! ## Responses -/

namespace Response

/-- The members that responses are read from. -/
def fields : List Field :=
  [.mk "jsonrpc" (.nullable .text) (.take .null), .mk "result" .any .leaveOut,
    .mk "error" (.nullable ErrorBody.shape) (.take .null), .mk "id" .any (.take .null)]

/-- The member that tells the version, which version 1.0 leaves out. -/
def tagMembers (version : Version) : Members :=
  version.tag?.toList.map fun t => ("jsonrpc", .str t)

theorem tagMembers_valid (version : Version) : ∀ kv ∈ tagMembers version, kv.2.Valid := by
  intro kv hkv
  obtain ⟨t, -, rfl⟩ := List.mem_map.mp hkv
  exact .str t

variable {version : Version} {id : Id}

/-! ### Results -/

/-- A response with a result is known by its members in order. -/
theorem success_reads (version : Version) {result : Json} (hid : id.toJson.Valid)
    (hresult : result.Valid) :
    (success version result id).toJson.Sound
      ∧ (success version result id).toJson.sorted
        = .obj (("id", id.toJson) :: (tagMembers version ++ [("result", result)])) := by
  have hvalid : ∀ kv ∈ tagMembers version ++ [("result", result)] ++ [] ++ [("id", id.toJson)],
      kv.2.Valid := by
    simpa [or_imp, forall_and] using ⟨fun k v => tagMembers_valid version (k, v), hresult, hid⟩
  refine ⟨.obj fun kv hkv => (hvalid kv hkv).sound, Json.sorted_obj ?_ ?_⟩
  · refine Members.sorted_of_keys ?_
    cases version with
    | v1 => show List.Pairwise _ ["id", "result"]; decide
    | v2 => show List.Pairwise _ ["id", "jsonrpc", "result"]; decide
  · show (Json.sortedMembers (tagMembers version ++ [("result", result)] ++ [] ++
      [("id", id.toJson)])).Perm _
    rw [Json.sortedMembers_eq_self fun kv hkv => (hvalid kv hkv).sorted_eq, List.append_nil]
    exact List.perm_append_comm

/-- A response with a result is read back from its bytes. -/
theorem ofBytes?_success {result : Json} (hid : id.toJson.Valid) (hresult : result.Valid)
    (hdepth : (success version result id).toJson.depth ≤ Reader.maxDepth) :
    Json.ofBytes? (success version result id).encode.toUTF8
      = some (.obj (("id", id.toJson) :: (tagMembers version ++ [("result", result)]))) := by
  obtain ⟨hsound, hsorted⟩ := success_reads version hid hresult
  exact (hsound.ofBytes?_toUTF8 hdepth).trans (congrArg some hsorted)

/-- A result is taken as it is, `null` included. -/
theorem read_success (version : Version) (result : Json) (id : Id) :
    read (.obj (("id", id.toJson) :: (tagMembers version ++ [("result", result)])))
      = .ok ⟨version.tag?, some result, none, Id.ofJson id.toJson⟩ := by
  cases version with
  | v1 => rfl
  | v2 => rfl

/-- A response with a result comes back as it was sent. -/
theorem decode_success (hid : id.toJson.Valid) (hsame : Id.ofJson id.toJson = id) {result : Json}
    (hresult : result.Valid)
    (hdepth : (success version result id).toJson.depth ≤ Reader.maxDepth) :
    decode (success version result id).encode.toUTF8 = .ok (success version result id) := by
  unfold decode
  rw [ofBytes?_success hid hresult hdepth]
  dsimp only
  rw [read_success, hsame]
  rfl

/-! ### Error objects -/

variable {e : ErrorBody}

/-- A response with an error object is known by its members in order, and so is the error
    object. -/
theorem failure_reads (version : Version) (hid : id.toJson.Valid) (he : e.Valid) :
    (failure version e id).toJson.Sound
      ∧ (failure version e id).toJson.sorted
        = .obj (("error", .obj e.inOrder) :: ("id", id.toJson) :: tagMembers version) := by
  obtain ⟨hsound, hsorted⟩ := he.toJson_reads
  have hwritten : Json.sortedMembers (tagMembers version ++ [] ++ [("error", e.toJson)] ++
      [("id", id.toJson)])
        = tagMembers version ++ [("error", .obj e.inOrder), ("id", id.toJson)] := by
    cases version <;>
      simp [tagMembers, Version.tag?, Json.sortedMembers, Json.sorted, hsorted, hid.sorted_eq]
  have hmembers : ∀ kv ∈ tagMembers version ++ [] ++ [("error", e.toJson)] ++
      [("id", id.toJson)], kv.2.Sound := by
    simpa [or_imp, forall_and] using
      ⟨fun k v hkv => (tagMembers_valid version (k, v) hkv).sound, hsound, hid.sound⟩
  refine ⟨.obj hmembers, Json.sorted_obj ?_ ?_⟩
  · refine Members.sorted_of_keys ?_
    cases version with
    | v1 => show List.Pairwise _ ["error", "id"]; decide
    | v2 => show List.Pairwise _ ["error", "id", "jsonrpc"]; decide
  · exact (List.Perm.of_eq hwritten).trans List.perm_append_comm

/-- A response with an error object is read back from its bytes, and so is the error object. -/
theorem ofBytes?_failure (hid : id.toJson.Valid) (he : e.Valid)
    (hdepth : (failure version e id).toJson.depth ≤ Reader.maxDepth) :
    Json.ofBytes? (failure version e id).encode.toUTF8
      = some (.obj (("error", .obj e.inOrder) :: ("id", id.toJson) :: tagMembers version)) := by
  obtain ⟨hsound, hsorted⟩ := failure_reads version hid he
  exact (hsound.ofBytes?_toUTF8 hdepth).trans (congrArg some hsorted)

/-- An error object is taken by its own shape. -/
theorem read_failure (version : Version) (he : e.Valid) (id : Id) :
    read (.obj (("error", .obj e.inOrder) :: ("id", id.toJson) :: tagMembers version))
      = .ok ⟨version.tag?, none, some e.received, Id.ofJson id.toJson⟩ := by
  obtain ⟨hshape, hrecord⟩ := ErrorBody.read_inOrder he.code
  have herror : Shape.Takes fields ("error", .obj e.inOrder) ("error", .obj e.declared) :=
    congrArg (Except.map fun v => some ("error", v)) hshape
  have hmember : Shape.Takes fields ("id", id.toJson) ("id", id.toJson) := rfl
  have htag : List.Forall₂ (Shape.Takes fields) (tagMembers version) (tagMembers version) := by
    cases version with
    | v1 => exact .nil
    | v2 => exact .cons rfl .nil
  have hread := Shape.read_record "JsonRpcResponse" (.cons herror (.cons hmember htag))
  show ((Shape.record "JsonRpcResponse" fields).read _).map ofRecord = _
  rw [hread]
  calc
    _ = .ok ⟨version.tag?, none, some (.ofRecord (.obj e.declared)), Id.ofJson id.toJson⟩ := by
      cases version with
      | v1 => rfl
      | v2 => rfl
    _ = _ := by rw [hrecord]

/-- A response with an error object comes back with the error object as it is received. -/
theorem decode_failure_received (hid : id.toJson.Valid) (hsame : Id.ofJson id.toJson = id)
    (he : e.Valid) (hdepth : (failure version e id).toJson.depth ≤ Reader.maxDepth) :
    decode (failure version e id).encode.toUTF8 = .ok (failure version e.received id) := by
  unfold decode
  rw [ofBytes?_failure hid he hdepth]
  dsimp only
  rw [read_failure version he, hsame]
  rfl

/-- A response with an error object comes back as it was sent. -/
theorem decode_failure (hid : id.toJson.Valid) (hsame : Id.ofJson id.toJson = id) (he : e.Valid)
    (hdata : e.data? ≠ some .null)
    (hdepth : (failure version e id).toJson.depth ≤ Reader.maxDepth) :
    decode (failure version e id).encode.toUTF8 = .ok (failure version e id) := by
  rw [decode_failure_received hid hsame he hdepth, e.received_eq_iff.mpr hdata]

/-! ### What comes back -/

/-- Ids made from values are read back as what they were made from. -/
theorem ofJson_toJson_ofJson (v : Json) : Id.ofJson (Id.ofJson v).toJson = Id.ofJson v :=
  congrArg Id.ofJson (Id.ofJson_toJson_of_ofJson v)

/-- A response in either version, with an id made from any value, is read as it was written if it
    carries a result, whatever the result is. If it carries an error object, the object comes back
    as it is received, so the response is read as it was written exactly if the object carries no
    data that are present and `null`. -/
theorem decode_encode_iff (version : Version) {id : Json} (hid : id.Valid) :
    (∀ result : Json, result.Valid →
        (success version result (Id.ofJson id)).toJson.depth ≤ Reader.maxDepth →
        decode (success version result (Id.ofJson id)).encode.toUTF8
          = .ok (success version result (Id.ofJson id)))
      ∧ ∀ e : ErrorBody, e.Valid →
          (failure version e (Id.ofJson id)).toJson.depth ≤ Reader.maxDepth →
          decode (failure version e (Id.ofJson id)).encode.toUTF8
              = .ok (failure version e.received (Id.ofJson id))
            ∧ (decode (failure version e (Id.ofJson id)).encode.toUTF8
                = .ok (failure version e (Id.ofJson id)) ↔ e.data? ≠ some .null) := by
  have hid' : (Id.ofJson id).toJson.Valid := by
    rw [Id.ofJson_toJson_of_ofJson]
    exact hid
  have hsame := ofJson_toJson_ofJson id
  constructor
  · intro result hresult hdepth
    exact decode_success hid' hsame hresult hdepth
  · intro e he hdepth
    have hreceived := decode_failure_received hid' hsame he hdepth
    refine ⟨hreceived, ?_⟩
    rw [hreceived, ← e.received_eq_iff]
    constructor
    · intro h
      exact Option.some.inj (congrArg error? (Except.ok.inj h))
    · intro h
      rw [h]

/-- A structured id, a result that is `null` in version 1.0, and an error object with data in
    version 2.0. -/
theorem structured_id_read_back :
    decode (success .v1 .null (.ofJson (.arr [.null, .str "x"]))).encode.toUTF8
        = .ok (success .v1 .null (.ofJson (.arr [.null, .str "x"])))
      ∧ decode (failure .v2 ⟨-1, "no", some (.bool false)⟩ (.ofJson .null)).encode.toUTF8
        = .ok (failure .v2 ⟨-1, "no", some (.bool false)⟩ (.ofJson .null)) := by
  have hid : (Json.arr [.null, .str "x"]).Valid :=
    .arr (List.forall_mem_cons.mpr ⟨.null, List.forall_mem_singleton.mpr (.str "x")⟩)
  have he : (ErrorBody.mk (-1) "no" (some (.bool false))).Valid := by
    refine ⟨rfl, ?_⟩
    rintro d ⟨⟩
    exact .bool false
  obtain ⟨hsuccess, -⟩ := decode_encode_iff .v1 hid
  obtain ⟨-, hfailure⟩ := decode_encode_iff .v2 Json.Valid.null
  exact ⟨hsuccess .null .null (by decide), (hfailure _ he (by decide)).2.mpr nofun⟩

/-- Data that are `null` are written, and lost when they are read. -/
theorem null_data_lost :
    (ErrorBody.mk 7 "no" (some .null)).Valid
      ∧ (failure .v2 ⟨7, "no", some .null⟩ (.ofNat 1)).encode
        = "\x7b\"jsonrpc\":\"2.0\",\"error\":\x7b\"code\":7,\"message\":\"no\"," ++
          "\"data\":null\x7d,\"id\":1\x7d"
      ∧ decode (failure .v2 ⟨7, "no", some .null⟩ (.ofNat 1)).encode.toUTF8
        = .ok (failure .v2 ⟨7, "no", none⟩ (.ofNat 1))
      ∧ decode (failure .v2 ⟨7, "no", some .null⟩ (.ofNat 1)).encode.toUTF8
        ≠ .ok (failure .v2 ⟨7, "no", some .null⟩ (.ofNat 1)) := by
  have he : (ErrorBody.mk 7 "no" (some .null)).Valid := by
    refine ⟨rfl, ?_⟩
    rintro d ⟨⟩
    exact .null
  have hread : decode (failure .v2 ⟨7, "no", some .null⟩ (.ofNat 1)).encode.toUTF8
      = .ok (failure .v2 ⟨7, "no", none⟩ (.ofNat 1)) :=
    decode_failure_received (.num rfl) rfl he (by decide)
  refine ⟨he, by decide +kernel, hread, ?_⟩
  rw [hread]
  exact fun h => nomatch congrArg error? (Except.ok.inj h)

end Response

end Switchboard
