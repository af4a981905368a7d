import Switchboard.Proofs.Values

/-!
# Values that were read

Whatever a JSON text holds is read as a value in order: its numbers are ones
that can be written, and no object in it has a key twice. So look-ups by name
in what was read find all that there is under a name, and a value that was
read is read back as it is.

The reader is a machine over a stack of open containers. What it keeps is
`Reader.Valid`: everything that has been collected in the open containers is in
order. A token of the lexer keeps it (`Reader.Valid.step`), so a text does.
-/

namespace Switchboard

/-! ## Numbers and tokens -/

namespace Binary64

/-- A float that is found for a ratio is finite. -/
theorem isFinite_of_ofRatio? {negative : Bool} {num den : ℕ} {x : Binary64}
    (h : ofRatio? negative num den = some x) : x.isFinite = true := by
  unfold ofRatio? at h
  split at h
  · obtain rfl := Option.some.inj h
    rfl
  · dsimp only at h
    split at h
    · rename_i hlt
      obtain rfl := Option.some.inj h
      exact decide_eq_true hlt
    · exact nomatch h

theorem isFinite_of_ofDecimal? {negative : Bool} {digits : ℕ} {exponent : ℤ} {x : Binary64}
    (h : ofDecimal? negative digits exponent = some x) : x.isFinite = true := by
  unfold ofDecimal? at h
  split at h
  · obtain rfl := Option.some.inj h
    rfl
  · split at h
    · exact nomatch h
    · split at h
      · obtain rfl := Option.some.inj h
        rfl
      · exact isFinite_of_ofRatio? h

end Binary64

/-- A number that is read can be written. -/
theorem Number.valid_of_ofParts? {negative : Bool} {whole fraction : List Char}
    {exponent : Option ℤ} {n : Number} (h : ofParts? negative whole fraction exponent = some n) :
    n.Valid := by
  have hfloat : ∀ {digits : ℕ} {e : ℤ}, (Binary64.ofDecimal? negative digits e).map .float = some n →
      n.Valid := by
    intro digits e hfloat
    obtain ⟨x, hx, rfl⟩ := Option.map_eq_some_iff.mp hfloat
    exact Binary64.isFinite_of_ofDecimal? hx
  unfold ofParts? at h
  dsimp only at h
  generalize (if negative then -(digitsValue (whole ++ fraction) : ℤ)
    else digitsValue (whole ++ fraction)) = i at h
  split at h
  · split at h
    · rename_i hexact
      obtain rfl := Option.some.inj h
      exact hexact
    · exact hfloat h
  · exact hfloat h

theorem Number.valid_of_unsigned? {negative : Bool} {cs rest : List Char} {n : Number}
    (h : unsigned? negative cs = some (n, rest)) : n.Valid := by
  unfold unsigned? at h
  simp only [Option.bind_eq_bind, Option.bind_eq_some_iff, Option.some.injEq, Prod.mk.injEq,
    Prod.exists] at h
  obtain ⟨whole, _, -, fraction, _, -, exponent, _, -, m, hm, rfl, -⟩ := h
  exact Number.valid_of_ofParts? hm

/-- A number that is read can be written. -/
theorem Number.valid_of_numeral? {cs rest : List Char} {n : Number}
    (h : numeral? cs = some (n, rest)) : n.Valid := by
  unfold numeral? at h
  split at h
  · exact Number.valid_of_unsigned? h
  · exact Number.valid_of_unsigned? h

/-- A token that the lexer can give: if it is a number, one that can be written. -/
def Token.Valid (t : Token) : Prop := ∀ n, t = .num n → n.Valid

/-- A token that is read is valid. -/
theorem Token.valid_of_token? {cs rest : List Char} {t : Token} (h : token? cs = some (t, rest)) :
    t.Valid := by
  rintro n rfl
  unfold token? at h
  split at h
  case h_10 =>
      obtain ⟨_, -, htext⟩ := Option.map_eq_some_iff.mp h
      exact nomatch htext
  case h_11 =>
      obtain ⟨⟨m, _⟩, hm, hnumber⟩ := Option.map_eq_some_iff.mp h
      cases hnumber
      exact Number.valid_of_numeral? hm
  all_goals exact nomatch h

theorem Token.valid_of_lexFrom {read ts : List Token} {cs : List Char}
    (hread : ∀ t ∈ read, t.Valid) (h : lexFrom read cs = some ts) : ∀ t ∈ ts, t.Valid := by
  fun_induction lexFrom read cs with
  | case1 read =>
      obtain rfl := Option.some.inj h
      simpa using hread
  | case2 read c rest hblank ih => exact ih hread h
  | case3 => exact nomatch h
  | case4 read c rest hblank t rest' htoken ih =>
      exact ih (List.forall_mem_cons.mpr ⟨valid_of_token? htoken, hread⟩) h

/-! ## The machine -/

/-- A member keeps an object in order. -/
theorem Json.Valid.insert {members : Members} (h : (Json.obj members).Valid) (key : String)
    {v : Json} (hv : v.Valid) : (Json.obj (members.insert key v)).Valid := by
  cases h with
  | obj hsorted hmembers =>
      refine .obj (hsorted.insert key v) ?_
      intro kv hkv
      rcases Members.mem_insert hkv with rfl | hmem
      · exact hv
      · exact hmembers kv hmem

/-- What has been collected in an open container is in order. -/
def Unfinished.Valid : Unfinished → Prop
  | .array items => ∀ v ∈ items, v.Valid
  | .object members => (Json.obj members).Valid
  | .member members _ => (Json.obj members).Valid

namespace Reader

/-- Everything that has been read so far is in order. -/
structure Valid (r : Reader) : Prop where
  stack : ∀ u ∈ r.stack, u.Valid
  result : ∀ v, r.awaiting = .nothing v → v.Valid

theorem valid_of_forall {stack : List Unfinished} (h : ∀ u ∈ stack, u.Valid) {next : Awaiting}
    (hnext : ∀ v, next ≠ .nothing v) : (Reader.mk stack next).Valid :=
  ⟨h, fun v hv => absurd hv (hnext v)⟩

theorem valid_start : start.Valid := valid_of_forall (List.forall_mem_nil _) nofun

variable {stack : List Unfinished} {r : Reader}

/-- A valid value can be put wherever the reader is. -/
theorem valid_of_give {v : Json} (hv : v.Valid) (hstack : ∀ u ∈ stack, u.Valid)
    (h : give v stack = some r) : r.Valid := by
  unfold give at h
  split at h
  case h_1 =>
      obtain rfl := Option.some.inj h
      refine ⟨List.forall_mem_nil _, ?_⟩
      rintro w ⟨⟩
      exact hv
  case h_2 items rest =>
      obtain rfl := Option.some.inj h
      obtain ⟨hitems, hrest⟩ := List.forall_mem_cons.mp hstack
      have hframe : (Unfinished.array (v :: items)).Valid := List.forall_mem_cons.mpr ⟨hv, hitems⟩
      exact valid_of_forall (List.forall_mem_cons.mpr ⟨hframe, hrest⟩) nofun
  case h_3 members key rest =>
      obtain rfl := Option.some.inj h
      obtain ⟨hmembers, hrest⟩ := List.forall_mem_cons.mp hstack
      have hframe : (Unfinished.object (members.insert key v)).Valid :=
        hmembers.insert key hv
      exact valid_of_forall (List.forall_mem_cons.mpr ⟨hframe, hrest⟩) nofun
  case h_4 => exact nomatch h

theorem valid_of_enter {frame : Unfinished} (hframe : frame.Valid)
    (hstack : ∀ u ∈ stack, u.Valid) {next : Awaiting} (h : enter frame next stack = some r)
    (hnext : ∀ v, next ≠ .nothing v) : r.Valid := by
  unfold enter at h
  split at h
  · obtain rfl := Option.some.inj h
    exact valid_of_forall (List.forall_mem_cons.mpr ⟨hframe, hstack⟩) hnext
  · exact nomatch h

theorem valid_of_beginValue {t : Token} (ht : t.Valid) (hstack : ∀ u ∈ stack, u.Valid)
    (h : beginValue stack t = some r) : r.Valid := by
  cases t with
  | null => exact valid_of_give .null hstack h
  | bool b => exact valid_of_give (.bool b) hstack h
  | num n => exact valid_of_give (.num (ht n rfl)) hstack h
  | str s => exact valid_of_give (.str s) hstack h
  | openArray =>
      have hframe : (Unfinished.array []).Valid := List.forall_mem_nil _
      exact valid_of_enter hframe hstack h nofun
  | openObject =>
      have hframe : (Unfinished.object []).Valid := .obj .nil (List.forall_mem_nil _)
      exact valid_of_enter hframe hstack h nofun
  | closeArray | closeObject | comma | colon => exact nomatch h

theorem valid_of_close {t : Token} (hstack : ∀ u ∈ stack, u.Valid)
    (h : close stack t = some r) : r.Valid := by
  unfold close at h
  split at h
  case h_1 items rest =>
      obtain ⟨hitems, hrest⟩ := List.forall_mem_cons.mp hstack
      refine valid_of_give (.arr ?_) hrest h
      intro v hv
      exact hitems v (List.mem_reverse.mp hv)
  case h_2 members rest =>
      obtain ⟨hmembers, hrest⟩ := List.forall_mem_cons.mp hstack
      exact valid_of_give hmembers hrest h
  case h_3 => exact nomatch h

/-- A token keeps what has been read in order. -/
theorem Valid.step {r' : Reader} {t : Token} (hr : r.Valid) (ht : t.Valid)
    (h : r.step t = some r') : r'.Valid := by
  obtain ⟨stack, awaiting⟩ := r
  have hstack : ∀ u ∈ stack, u.Valid := hr.stack
  unfold Reader.step at h
  split at h
  case h_1 => exact valid_of_beginValue ht hstack h
  case h_2 => exact valid_of_close hstack h
  case h_3 => exact valid_of_beginValue ht hstack h
  case h_4 => exact valid_of_close hstack h
  case h_5 | h_6 =>
      obtain rfl := Option.some.inj h
      exact valid_of_forall hstack nofun
  case h_7 key _ =>
      dsimp only at h
      split at h
      case h_1 members rest _ =>
          obtain rfl := Option.some.inj h
          -- the object is kept as it is, only a key is written down beside it
          obtain ⟨hmembers, hrest⟩ := List.forall_mem_cons.mp hstack
          have hframe : (Unfinished.member members key).Valid := hmembers
          exact valid_of_forall (List.forall_mem_cons.mpr ⟨hframe, hrest⟩) nofun
      case h_2 => exact nomatch h
  case h_8 =>
      dsimp only at h
      split at h
      case h_1 | h_2 =>
          obtain rfl := Option.some.inj h
          exact valid_of_forall hstack nofun
      case h_3 => exact nomatch h
  case h_9 => exact valid_of_close hstack h
  case h_10 => exact nomatch h

/-- So does a text. -/
theorem Valid.run {r' : Reader} {ts : List Token} (hr : r.Valid) (hts : ∀ t ∈ ts, t.Valid)
    (h : r.run ts = some r') : r'.Valid := by
  induction ts generalizing r with
  | nil =>
      obtain rfl := Option.some.inj h
      exact hr
  | cons t ts ih =>
      obtain ⟨ht, hrest⟩ := List.forall_mem_cons.mp hts
      unfold Reader.run at h
      split at h
      case h_1 => exact nomatch h
      case h_2 next hstep => exact ih (hr.step ht hstep) hrest h

end Reader

/-! ## Texts -/

/-- No key stands twice, in whatever order the keys are, and all values are in order. -/
structure Members.Valid (members : Members) : Prop where
  keys : (members.map Prod.fst).Nodup
  values : ∀ kv ∈ members, kv.2.Valid

/-- What is found in valid members is valid. -/
theorem Members.Valid.of_lookup {members : Members} (h : members.Valid) {key : String} {v : Json}
    (hv : members.lookup key = some v) : v.Valid := by
  obtain ⟨front, back, rfl, -⟩ := List.lookup_eq_some_iff.mp hv
  exact h.values (key, v) (List.mem_append_right _ List.mem_cons_self)

namespace Json

/-- Whatever is read from a text is valid. -/
theorem valid_of_parse? {text : String} {v : Json} (h : parse? text = some v) : v.Valid := by
  obtain ⟨ts, hts, h⟩ := Option.bind_eq_some_iff.mp h
  obtain ⟨r, hr, h⟩ := Option.bind_eq_some_iff.mp h
  have hvalid := Reader.valid_start.run (Token.valid_of_lexFrom (List.forall_mem_nil _) hts) hr
  refine hvalid.result v ?_
  unfold Reader.result? at h
  split at h
  case h_1 w hw =>
      obtain rfl := Option.some.inj h
      exact hw
  case h_2 => exact nomatch h

/-- No key stands twice in a valid object. -/
theorem Valid.nodup_keys {members : Members} (h : (Json.obj members).Valid) :
    (members.map Prod.fst).Nodup := by
  cases h with
  | obj hsorted _ => exact hsorted.nodup_keys

theorem Valid.members {members : Members} (h : (Json.obj members).Valid) : members.Valid := by
  refine ⟨h.nodup_keys, ?_⟩
  cases h with
  | obj _ hmembers => exact hmembers

/-- A value that was read from bytes is in order. -/
theorem valid_of_ofBytes? {bytes : ByteArray} {v : Json} (h : ofBytes? bytes = some v) :
    v.Valid := by
  obtain ⟨text, -, hparse⟩ := Option.bind_eq_some_iff.mp h
  exact valid_of_parse? hparse

end Json

end Switchboard
