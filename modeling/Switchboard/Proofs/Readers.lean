import Switchboard.Proofs.Decoding
import Switchboard.Proofs.Dialects

/-!
# Two readers of requests

A request can be read in two ways. A server reads it member by member
(`Call.ofJson`), and whoever wants the envelope itself reads it by its shape
(`Request.read`), where ids are read by trying one form after the other and
where what is left out has a default.

Neither is written in terms of the other, so they are compared through what
they have to agree on: `Request.Says` is what an object says about a request.
The second reader gives just what an object says (`Request.read_obj_eq_ok_iff`),
and the first one makes a call of it unless the object gives its parameters by
name in a version that does not know names (`Request.Says.ofJson_eq`).
-/

namespace Switchboard

/-! ## Ids and parameters -/

/-- Of the forms of an id the one that takes a value is the one for its sort. -/
theorem Id.read_eq_some_ofJson (v : Json) : read v = some (ofJson v) := by
  cases v <;> rfl

/-- Parameters are read exactly as the letter has them. -/
theorem Params.read_eq_ok_iff {v : Json} {params : Params} :
    read v = .ok params ↔ Letter (some v) params := by
  unfold read
  rw [map_eq_ok_iff]
  constructor
  · rintro ⟨w, hw, rfl⟩
    cases v with
    | arr items =>
        obtain rfl := Except.ok.inj hw
        exact .array items
    | obj members =>
        obtain rfl := Except.ok.inj hw
        exact .object members
    | null | bool _ | num _ | str _ => exact nomatch hw
  · rintro (_ | items | members)
    · exact ⟨_, rfl, rfl⟩
    · exact ⟨_, rfl, rfl⟩

theorem Params.Letter.unique {member? : Option Json} {params params' : Params}
    (h : Letter member? params) (h' : Letter member? params') : params = params' := by
  cases h <;> cases h' <;> rfl

/-- By the letter there are parameters if there is no member or it is an array or an object. -/
theorem Params.exists_letter_iff {member? : Option Json} :
    (∃ params, Letter member? params)
      ↔ ∀ w, member? = some w → (∃ items, w = .arr items) ∨ ∃ members, w = .obj members := by
  constructor
  · rintro ⟨_, _ | items | members⟩ w hw
    · exact nomatch hw
    · exact Or.inl ⟨items, (Option.some.inj hw).symm⟩
    · exact Or.inr ⟨members, (Option.some.inj hw).symm⟩
  · intro h
    cases member? with
    | none => exact ⟨_, .absent⟩
    | some w =>
        rcases h w rfl with ⟨items, rfl⟩ | ⟨members, rfl⟩
        · exact ⟨_, .array items⟩
        · exact ⟨_, .object members⟩

/-! ## What an object says -/

namespace Request

/-- What an object says about a request: a version or none, a method, and the parameters by the
    letter. What is under `id` is read as an id, and null if nothing is. -/
structure Says (members : Members) (q : Request) : Prop where
  tag : members.Optional "jsonrpc" Json.IsText q.tag?
  method : members.lookup "method" = some (.str q.method)
  params : Params.Letter (members.lookup "params") q.params
  id : Id.read (Json.ofOption (members.lookup "id")) = some q.id

variable {members : Members} {q q' : Request}

/-- An object says at most one request. -/
theorem Says.unique (h : Says members q) (h' : Says members q') : q = q' := by
  obtain ⟨tag?, method, params, id⟩ := q
  obtain ⟨tag?', method', params', id'⟩ := q'
  obtain rfl : tag? = tag?' := h.tag.unique Json.IsText.unique nofun h'.tag
  obtain rfl : method = method' :=
    Json.str.inj (Option.some.inj (h.method.symm.trans h'.method))
  obtain rfl : params = params' := h.params.unique h'.params
  obtain rfl : id = id' := Option.some.inj (h.id.symm.trans h'.id)
  rfl

/-- An object says something about a request if the members that have a type keep to it. -/
theorem exists_says_iff :
    (∃ q, Says members q)
      ↔ (∃ name, members.lookup "method" = some (.str name))
        ∧ (∀ w, members.lookup "jsonrpc" = some w → w = .null ∨ ∃ s, w = .str s)
        ∧ ∀ w, members.lookup "params" = some w →
          (∃ items, w = .arr items) ∨ ∃ given, w = .obj given := by
  rw [← Params.exists_letter_iff]
  constructor
  · rintro ⟨q, h⟩
    exact ⟨⟨_, h.method⟩, Members.exists_optional_iff.mp ⟨_, h.tag⟩, _, h.params⟩
  · rintro ⟨⟨name, hmethod⟩, htag, params, hparams⟩
    obtain ⟨tag?, htag⟩ := Members.exists_optional_iff.mpr htag
    exact ⟨⟨tag?, name, params, _⟩, htag, hmethod, hparams, Id.read_eq_some_ofJson _⟩

/-! ## Reading by the shape -/

/-- The members of a request. -/
def fields : List Field :=
  [.mk "jsonrpc" (.nullable .text) (.take .null), .mk "method" .text .refuse,
    .mk "params" Params.shape (.take (.arr [])), .mk "id" .any (.take .null)]

theorem fields_distinct : (fields.map Field.name).Nodup := by decide

theorem tag_mem_fields : Field.mk "jsonrpc" (.nullable .text) (.take .null) ∈ fields := by
  simp [fields]

theorem method_mem_fields : Field.mk "method" .text .refuse ∈ fields := by simp [fields]

theorem params_mem_fields : Field.mk "params" Params.shape (.take (.arr [])) ∈ fields := by
  simp [fields]

theorem id_mem_fields : Field.mk "id" .any (.take .null) ∈ fields := by simp [fields]

/-- What has been taken of an object for a request, completed. -/
def completed (given : Members) (method : Json) : Members :=
  [("jsonrpc", (given.lookup "jsonrpc").getD .null), ("method", method),
    ("params", (given.lookup "params").getD (.arr [])), ("id", (given.lookup "id").getD .null)]

/-- Only the method has to be given. -/
theorem completeRecord_fields_eq_ok_iff {given bound : Members} :
    Shape.completeRecord given fields = .ok bound
      ↔ ∃ method, given.lookup "method" = some method ∧ bound = completed given method := by
  have hplain : (Field.mk "method" .text .refuse).Plain := Or.inl rfl
  unfold fields
  rw [Shape.completeRecord_cons_take given rfl, map_eq_ok_iff]
  cases hmethod : given.lookup "method" with
  | none =>
      have hnot : ¬ ∃ v, Shape.Fills given (.mk "method" .text .refuse) v := by
        rintro ⟨v, hv | ⟨-, hnullable, -⟩⟩
        · exact nomatch hmethod.symm.trans hv
        · exact nomatch hnullable
      rw [Shape.completeRecord_cons_of_not_fills hplain hnot]
      constructor
      · rintro ⟨_, herror, -⟩
        exact nomatch herror
      · rintro ⟨_, hnone, -⟩
        exact nomatch hnone
  | some method =>
      rw [Shape.completeRecord_cons_of_fills hplain (Or.inl hmethod),
        Shape.completeRecord_cons_take given rfl, Shape.completeRecord_cons_take given rfl]
      constructor
      · rintro ⟨_, ⟨⟩, rfl⟩
        exact ⟨method, rfl, rfl⟩
      · rintro ⟨_, ⟨⟩, rfl⟩
        exact ⟨_, rfl, rfl⟩

/-- A request is read from an object exactly if every member under one of its keys can be taken,
    the method among them. -/
theorem read_obj_eq_ok_iff_taken :
    read (.obj members) = .ok q
      ↔ ∃ taken method,
        List.Forall₂ (fun kv taken? => Shape.readMember fields kv.1 kv.2 = .ok taken?) members taken
        ∧ taken.reduceOption.lookup "method" = some method
        ∧ ofRecord (.obj (completed taken.reduceOption method)) = q := by
  unfold read
  rw [map_eq_ok_iff, show shape = .record "JsonRpcRequest" fields from rfl]
  simp only [Shape.read_record_obj_eq_ok_iff]
  constructor
  · rintro ⟨_, ⟨taken, bound, htaken, hbound, rfl⟩, rfl⟩
    obtain ⟨method, hmethod, rfl⟩ := completeRecord_fields_eq_ok_iff.mp hbound
    exact ⟨taken, method, htaken, hmethod, rfl⟩
  · rintro ⟨taken, method, htaken, hmethod, rfl⟩
    exact ⟨_, ⟨taken, _, htaken, completeRecord_fields_eq_ok_iff.mpr ⟨method, hmethod, rfl⟩, rfl⟩,
      rfl⟩

/-- What has been taken of an object is what the object says. -/
theorem says_of_taken {taken : List (Option (String × Json))} {method : Json}
    (htaken : List.Forall₂ (fun kv taken? => Shape.readMember fields kv.1 kv.2 = .ok taken?)
      members taken) (hmethod : taken.reduceOption.lookup "method" = some method) :
    Says members (ofRecord (.obj (completed taken.reduceOption method))) := by
  constructor
  case tag =>
      show members.Optional "jsonrpc" Json.IsText
        ((taken.reduceOption.lookup "jsonrpc").getD .null).asString?
      rcases Shape.lookup_taken fields_distinct htaken tag_mem_fields with
        ⟨hnone, hgiven⟩ | ⟨w, v, hsome, hread, hgiven⟩
      · have hgiven : taken.reduceOption.lookup "jsonrpc" = none := hgiven
        rw [hgiven]
        exact .absent hnone
      · have hgiven : taken.reduceOption.lookup "jsonrpc" = some v := hgiven
        rw [hgiven]
        by_cases hnull : w = .null
        · obtain rfl := hnull
          obtain rfl : .null = v := Except.ok.inj hread
          exact .null hsome
        · obtain ⟨rfl, s, rfl⟩ :=
            Shape.read_text_eq_ok_iff.mp ((Shape.read_nullable_of_ne hnull).symm.trans hread)
          exact .given hsome rfl
  case method =>
      rcases Shape.lookup_taken fields_distinct htaken method_mem_fields with
        ⟨-, hgiven⟩ | ⟨w, v, hsome, hread, hgiven⟩
      · exact nomatch hmethod.symm.trans hgiven
      · obtain rfl : method = v := Option.some.inj (hmethod.symm.trans hgiven)
        obtain ⟨rfl, s, rfl⟩ := Shape.read_text_eq_ok_iff.mp hread
        exact hsome
  case params =>
      show Params.Letter (members.lookup "params")
        (Params.ofContainer ((taken.reduceOption.lookup "params").getD (.arr [])))
      rcases Shape.lookup_taken fields_distinct htaken params_mem_fields with
        ⟨hnone, hgiven⟩ | ⟨w, v, hsome, hread, hgiven⟩
      · have hnone : members.lookup "params" = none := hnone
        have hgiven : taken.reduceOption.lookup "params" = none := hgiven
        rw [hnone, hgiven]
        exact .absent
      · have hsome : members.lookup "params" = some w := hsome
        have hgiven : taken.reduceOption.lookup "params" = some v := hgiven
        rw [hsome, hgiven]
        exact Params.read_eq_ok_iff.mp (map_eq_ok_iff.mpr ⟨v, hread, rfl⟩)
  case id =>
      show Id.read (Json.ofOption (members.lookup "id"))
        = some ((Id.read ((taken.reduceOption.lookup "id").getD .null)).getD .null)
      rw [Shape.lookup_taken_any fields_distinct htaken id_mem_fields]
      cases members.lookup "id" with
      | none => rfl
      | some v =>
          show Id.read v = some ((Id.read v).getD .null)
          rw [Id.read_eq_some_ofJson]
          rfl

theorem Says.exists_taken (h : Says members q) (hkeys : (members.map Prod.fst).Nodup) :
    ∃ taken, List.Forall₂ (fun kv taken? => Shape.readMember fields kv.1 kv.2 = .ok taken?)
      members taken := by
  refine Shape.exists_taken fields_distinct hkeys ?_
  intro f hf w hw
  simp only [fields, List.mem_cons, List.not_mem_nil, or_false] at hf
  rcases hf with rfl | rfl | rfl | rfl
  · refine Shape.exists_read_nullable h.tag hw ?_
    rintro s rfl
    exact ⟨.str s, rfl⟩
  · obtain rfl := Option.some.inj (hw.symm.trans h.method)
    exact ⟨_, rfl⟩
  · have hletter : Params.Letter (some w) q.params := hw ▸ h.params
    obtain ⟨v, hv, -⟩ := map_eq_ok_iff.mp (Params.read_eq_ok_iff.mpr hletter)
    exact ⟨v, hv⟩
  · exact ⟨w, rfl⟩

/-- An object is read as the request that it says. -/
theorem read_obj_eq_ok_iff (hkeys : (members.map Prod.fst).Nodup) :
    read (.obj members) = .ok q ↔ Says members q := by
  rw [read_obj_eq_ok_iff_taken]
  constructor
  · rintro ⟨taken, method, htaken, hmethod, rfl⟩
    exact says_of_taken htaken hmethod
  · intro h
    obtain ⟨taken, htaken⟩ := h.exists_taken hkeys
    rcases Shape.lookup_taken fields_distinct htaken method_mem_fields with
      ⟨hnone, -⟩ | ⟨w, v, -, -, hmethod⟩
    · exact nomatch hnone.symm.trans h.method
    · have hmethod : taken.reduceOption.lookup "method" = some v := hmethod
      -- what is read is said as well, and an object says one thing only
      exact ⟨taken, v, htaken, hmethod, (says_of_taken htaken hmethod).unique h⟩

/-! ## Reading as a server does -/

/-- Both readers find the same version. -/
theorem Says.version_eq (h : Says members q) :
    Version.ofMember (members.lookup "jsonrpc") = q.version := by
  obtain ⟨tag?, method, params, id⟩ := q
  cases h.tag with
  | absent hnone => rw [hnone]; rfl
  | null hnull => rw [hnull]; rfl
  | given hgiven htext =>
      obtain rfl := htext
      rw [hgiven]
      rfl

/-- Both readers find the same id. -/
theorem Says.id_eq (h : Says members q) :
    ((members.lookup "id").map Id.ofJson).getD .null = q.id := by
  refine Option.some.inj (Eq.trans ?_ h.id)
  rw [Id.read_eq_some_ofJson]
  cases members.lookup "id" <;> rfl

/-- What a server makes of an object that says a request: a call, unless it is of version 1.0 and
    gives its parameters by name. -/
theorem Says.ofJson_eq (h : Says members q) :
    Call.ofJson (.obj members)
      = if q.version = .v1 ∧ q.params.isNamed = true then .error ⟨.namedParams, q.version, q.id⟩
        else .ok ⟨q.version, q.method, q.params, (members.lookup "id").map Id.ofJson⟩ := by
  have hparams := Params.ofMember?_eq_some_iff.mpr (Or.inl h.params)
  have hparts : Call.ofJson (.obj members) = Call.ofParts q.version q.method
      (members.lookup "params") ((members.lookup "id").map Id.ofJson) := by
    rw [← h.version_eq, Call.ofJson, h.method]
  have hallowed : (q.params.isNamed && !q.version.allowsNamed) = true
      ↔ q.version = .v1 ∧ q.params.isNamed = true := by
    cases q.version <;> simp [Version.allowsNamed]
  rw [hparts, Call.ofParts, hparams]
  dsimp only
  rw [h.id_eq]
  by_cases hnamed : q.version = .v1 ∧ q.params.isNamed = true
  · rw [if_pos hnamed, if_pos (hallowed.mpr hnamed)]
  · rw [if_neg hnamed, if_neg (mt hallowed.mp hnamed)]

/-- The two readers of requests agree. An object is read by the shape of a request exactly if its
    method is a text, its version is a text, null or left out, and its parameters are an array, an
    object or left out. A server then makes a call of it with the version, the method, the
    parameters and the id that have been read, unless the version is 1.0 and the parameters go by
    name, which it refuses under that id. The readers of ids agree on all values, and those of
    parameters on arrays and objects. -/
theorem readers_agree {members : Members} (hkeys : (members.map Prod.fst).Nodup) :
    ((∃ q, read (.obj members) = .ok q)
        ↔ (∃ name, members.lookup "method" = some (.str name))
          ∧ (∀ w, members.lookup "jsonrpc" = some w → w = .null ∨ ∃ s, w = .str s)
          ∧ ∀ w, members.lookup "params" = some w →
            (∃ items, w = .arr items) ∨ ∃ given, w = .obj given)
      ∧ (∀ q, read (.obj members) = .ok q →
          (¬ (q.version = .v1 ∧ q.params.isNamed = true) →
            ∃ c, Call.ofJson (.obj members) = .ok c ∧ c.version = q.version ∧ c.method = q.method
              ∧ c.params = q.params ∧ c.responseId = q.id)
          ∧ (q.version = .v1 ∧ q.params.isNamed = true →
            Call.ofJson (.obj members) = .error ⟨.namedParams, q.version, q.id⟩))
      ∧ (∀ v, Id.read v = some (Id.ofJson v))
      ∧ ∀ v, ((∃ items, v = .arr items) ∨ ∃ given, v = .obj given) →
          ∃ params, Params.read v = .ok params ∧ Params.ofMember? (some v) = some params := by
  refine ⟨?_, ?_, Id.read_eq_some_ofJson, ?_⟩
  · simp only [read_obj_eq_ok_iff hkeys]
    exact exists_says_iff
  · intro q hq
    have hsaid := (read_obj_eq_ok_iff hkeys).mp hq
    rw [hsaid.ofJson_eq]
    constructor
    · intro hnamed
      rw [if_neg hnamed]
      exact ⟨_, rfl, rfl, rfl, rfl, hsaid.id_eq⟩
    · intro hnamed
      rw [if_pos hnamed]
  · intro v hv
    -- a container is always read, and both readers take it by the letter
    obtain ⟨params, hletter⟩ : ∃ params, Params.Letter (some v) params := by
      refine Params.exists_letter_iff.mpr ?_
      rintro w ⟨⟩
      exact hv
    exact ⟨params, Params.read_eq_ok_iff.mpr hletter,
      Params.ofMember?_eq_some_iff.mpr (Or.inl hletter)⟩

/-- An envelope that gives a parameter by name and an id that is no text and no number. -/
def namedEnvelope (tag : Json) : Members :=
  [("id", .bool true), ("jsonrpc", tag), ("method", .str "m"),
    ("params", .obj [("a", .num (.int 1))])]

/-- Such an envelope is read in either version, and a call in version 2.0 only. -/
theorem named_envelope_read :
    ((namedEnvelope (.str "2.0")).map Prod.fst).Nodup
      ∧ ((namedEnvelope .null).map Prod.fst).Nodup
      ∧ (∃ q, read (.obj (namedEnvelope (.str "2.0"))) = .ok q ∧ q.version = .v2
        ∧ q.id = .other (.bool true)
        ∧ ∃ c, Call.ofJson (.obj (namedEnvelope (.str "2.0"))) = .ok c ∧ c.params = q.params)
      ∧ (∃ q, read (.obj (namedEnvelope .null)) = .ok q ∧ q.version = .v1
        ∧ Call.ofJson (.obj (namedEnvelope .null)) = .error ⟨.namedParams, q.version, q.id⟩)
      ∧ ¬ ∃ q, read (.obj (namedEnvelope (.num (.int 2)))) = .ok q := by
  have hnew : ((namedEnvelope (.str "2.0")).map Prod.fst).Nodup := by decide
  have hold : ((namedEnvelope .null).map Prod.fst).Nodup := by decide
  have hnumber : ((namedEnvelope (.num (.int 2))).map Prod.fst).Nodup := by decide
  have hreadNew : read (.obj (namedEnvelope (.str "2.0")))
      = .ok ⟨some "2.0", "m", .named [("a", .num (.int 1))], .other (.bool true)⟩ :=
    (read_obj_eq_ok_iff hnew).mpr ⟨.given rfl rfl, rfl, .object _, rfl⟩
  have hreadOld : read (.obj (namedEnvelope .null))
      = .ok ⟨none, "m", .named [("a", .num (.int 1))], .other (.bool true)⟩ :=
    (read_obj_eq_ok_iff hold).mpr ⟨.null rfl, rfl, .object _, rfl⟩
  obtain ⟨-, hcallNew, -⟩ := readers_agree hnew
  obtain ⟨-, hcallOld, -⟩ := readers_agree hold
  obtain ⟨hexists, -⟩ := readers_agree hnumber
  obtain ⟨c, hc, -, -, hparams, -⟩ := (hcallNew _ hreadNew).1 (by decide)
  refine ⟨hnew, hold, ⟨_, hreadNew, by decide, rfl, c, hc, hparams⟩,
    ⟨_, hreadOld, rfl, (hcallOld _ hreadOld).2 ⟨rfl, rfl⟩⟩, ?_⟩
  intro hread
  -- the number two is a version for a server, but it is no text
  obtain ⟨-, htag, -⟩ := hexists.mp hread
  rcases htag _ rfl with hnull | ⟨s, hs⟩
  · exact nomatch hnull
  · exact nomatch hs

end Request

end Switchboard
