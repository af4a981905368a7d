import Mathlib.Data.Set.Card
import Mathlib.Data.String.Basic
import Switchboard.Proofs.Registration

/-!
# Tables as maps

A table stands for a map from names to methods, and registrations write to it.
Two facts make it one. The methods stand in strict order of their names
(`Ordered`, which every registration keeps), so that a name is found at most
once and tables with the same look-ups are the same table. And what is found
under a name is what the LAST registration of that name asked for
(`find?_eq_some_iff_lastUnder`), whatever failed or was replaced before it.

Listings are the methods in their order, so they depend on the map alone and
not on how it came about.
-/

namespace Switchboard

variable {σ : Type}

/-- The text of a registration is read as a signature, and the method carries that
    signature and what else the registration asks for. -/
structure Registration.Adds (r : Registration σ) (m : Method σ) : Prop where
  signature : Signature.parse r.text r.terms.parameterNames = .ok m.signature
  handler : m.handler = r.handler
  authenticated : m.authenticated = r.terms.authenticated
  safe : m.safe = r.terms.safe
  validate : m.validate = r.terms.validate
  parameterNames : m.parameterNames =
    if m.signature.isWildcard then r.terms.parameterNames else m.signature.parameterNames

/-- Of some registrations the last one under a name adds this method. -/
def LastUnder (rs : List (Registration σ)) (name : String) (m : Method σ) : Prop :=
  ∃ earlier r later, rs = earlier ++ r :: later ∧ r.Adds m ∧ m.name = name ∧
    ∀ q ∈ later, ∀ n, q.Adds n → n.name ≠ name

theorem Registration.adds_iff {r : Registration σ} {m : Method σ} :
    r.Adds m ↔ r.method? = some m := by
  rw [Registration.method?_eq_some_iff]
  constructor
  · intro h
    refine ⟨m.signature, h.signature, ?_⟩
    rw [Method.make, ← h.handler, ← h.authenticated, ← h.safe, ← h.validate, ← h.parameterNames]
  · rintro ⟨sig, hsig, rfl⟩
    exact ⟨hsig, rfl, rfl, rfl, rfl, rfl⟩

/-- One more registration is the last one under its own name and leaves the last ones under all
    other names as they were. -/
theorem lastUnder_append_singleton {rs : List (Registration σ)} {r : Registration σ}
    {name : String} {m : Method σ} :
    LastUnder (rs ++ [r]) name m ↔
      r.Adds m ∧ m.name = name ∨
        LastUnder rs name m ∧ ∀ n, r.Adds n → n.name ≠ name := by
  constructor
  · rintro ⟨earlier, q, later, hsplit, hadds, hname, hlater⟩
    rcases List.eq_nil_or_concat later with rfl | ⟨front, last, rfl⟩
    · obtain ⟨-, hlast⟩ := List.append_inj' hsplit rfl
      obtain rfl : r = q := List.singleton_inj.mp hlast
      exact Or.inl ⟨hadds, hname⟩
    · have hsplit' : rs ++ [r] = (earlier ++ q :: front) ++ [last] := by
        rw [hsplit, List.concat_eq_append, List.append_assoc, List.cons_append]
      obtain ⟨rfl, hlast⟩ := List.append_inj' hsplit' rfl
      obtain rfl : r = last := List.singleton_inj.mp hlast
      rw [List.concat_eq_append] at hlater
      refine Or.inr ⟨⟨earlier, q, front, rfl, hadds, hname, ?_⟩, ?_⟩
      · intro p hp
        exact hlater p (List.mem_append_left _ hp)
      · exact hlater r (List.mem_append_right _ (List.mem_singleton_self r))
  · rintro (⟨hadds, hname⟩ | ⟨⟨earlier, q, later, rfl, hadds, hname, hlater⟩, hr⟩)
    · exact ⟨rs, r, [], rfl, hadds, hname, nofun⟩
    · refine ⟨earlier, q, later ++ [r], ?_, hadds, hname, ?_⟩
      · rw [List.append_assoc, List.cons_append]
      · intro p hp
        rcases List.mem_append.mp hp with hlate | hlast
        · exact hlater p hlate
        · obtain rfl := List.mem_singleton.mp hlast
          exact hr

/-- The members of a method's entry in a listing, in the order in which they are written. -/
theorem Method.describe_eq (m : Method σ) : m.describe = .obj [
    ("authenticated", .bool m.authenticated), ("name", .str m.name),
    ("params",
      Json.ofOption (m.signature.parameters?.map fun ps => .arr (ps.map Parameter.toJson))),
    ("returns", .str m.signature.returns.name), ("safe", .bool m.safe),
    ("signature", .str m.signature.render), ("validate", .bool m.validate)] := by
  simp only [Method.describe, Json.object, Members.ofList, Members.insert, List.foldl_cons,
    List.foldl_nil, String.reduceLT, String.reduceEq, reduceIte]

theorem Method.describe_name (m : Method σ) : m.describe.get? "name" = some (.str m.name) := by
  rw [Method.describe_eq]
  rfl

namespace MethodTable

/-! ## Order -/

/-- The methods stand in the order of their names, and no name stands twice. -/
def Ordered (t : MethodTable σ) : Prop := t.methods.Pairwise fun m n => m.name < n.name

theorem mem_insertMethod {m n : Method σ} {l : List (Method σ)} (h : n ∈ insertMethod m l) :
    n = m ∨ n ∈ l := by
  induction l with
  | nil => exact Or.inl (List.mem_singleton.mp h)
  | cons p rest ih =>
      simp only [insertMethod] at h
      split_ifs at h with hlt heq
      · exact List.mem_cons.mp h
      · exact (List.mem_cons.mp h).imp_right (List.mem_cons_of_mem p)
      · rcases List.mem_cons.mp h with rfl | hrest
        · exact Or.inr List.mem_cons_self
        · exact (ih hrest).imp_right (List.mem_cons_of_mem p)

/-- A table stays in order when a method is added. -/
theorem Ordered.insert {t : MethodTable σ} (h : t.Ordered) (m : Method σ) :
    (t.insert m).Ordered := by
  obtain ⟨l⟩ := t
  change l.Pairwise _ at h
  show (insertMethod m l).Pairwise _
  induction l with
  | nil => exact List.pairwise_singleton _ m
  | cons p rest ih =>
      obtain ⟨hp, hrest⟩ := List.pairwise_cons.mp h
      simp only [insertMethod]
      split_ifs with hlt heq
      · refine List.pairwise_cons.mpr ⟨?_, h⟩
        intro n hn
        rcases List.mem_cons.mp hn with rfl | hn
        · exact hlt
        · exact hlt.trans (hp n hn)
      · refine List.pairwise_cons.mpr ⟨?_, hrest⟩
        intro n hn
        rw [heq]
        exact hp n hn
      · refine List.pairwise_cons.mpr ⟨?_, ih hrest⟩
        intro n hn
        -- what comes behind the first method is new or was behind it before
        rcases mem_insertMethod hn with rfl | hn
        · exact lt_of_le_of_ne (not_lt.mp hlt) (Ne.symm heq)
        · exact hp n hn

theorem ofRegistrations_append_singleton (rs : List (Registration σ)) (r : Registration σ) :
    ofRegistrations (rs ++ [r]) = (ofRegistrations rs).registered r := by
  simp [ofRegistrations]

/-- Registrations keep a table in order, the failed ones too. -/
theorem ordered_ofRegistrations (rs : List (Registration σ)) : (ofRegistrations rs).Ordered := by
  induction rs using List.reverseRecOn with
  | nil => exact List.Pairwise.nil
  | append_singleton rs r ih =>
      rw [ofRegistrations_append_singleton]
      cases hm : r.method? with
      | none => rwa [registered_of_none hm]
      | some m =>
          rw [registered_of_some hm]
          exact ih.insert m

/-! ## Look-up -/

theorem name_of_find? {t : MethodTable σ} {name : String} {m : Method σ}
    (h : t.find? name = some m) : m.name = name :=
  of_decide_eq_true (List.find?_some (p := fun m : Method σ => decide (m.name = name)) h)

/-- In a table in order every method is the one of its name. -/
theorem Ordered.mem_iff {t : MethodTable σ} (h : t.Ordered) {m : Method σ} :
    m ∈ t.methods ↔ t.find? m.name = some m := by
  constructor
  · intro hm
    obtain ⟨l⟩ := t
    change l.Pairwise _ at h
    show l.find? _ = some m
    induction l with
    | nil => exact nomatch hm
    | cons p rest ih =>
        obtain ⟨hp, hrest⟩ := List.pairwise_cons.mp h
        rcases List.mem_cons.mp hm with rfl | hmem
        · exact List.find?_cons_of_pos (decide_eq_true rfl)
        · rw [List.find?_cons_of_neg]
          · exact ih hmem hrest
          · simpa using (hp m hmem).ne
  · intro hfind
    exact List.mem_of_find?_eq_some hfind

/-- Tables in order with the same look-ups are the same. -/
theorem Ordered.ext {t u : MethodTable σ} (ht : t.Ordered) (hu : u.Ordered)
    (h : ∀ name, t.find? name = u.find? name) : t = u := by
  have hnodup {v : MethodTable σ} (hv : v.Ordered) : v.methods.Nodup := by
    refine hv.imp ?_
    rintro m _ hlt rfl
    exact hlt.false
  have hperm : t.methods.Perm u.methods := by
    rw [List.perm_ext_iff_of_nodup (hnodup ht) (hnodup hu)]
    intro m
    rw [ht.mem_iff, hu.mem_iff, h]
  obtain ⟨l⟩ := t
  obtain ⟨k⟩ := u
  refine congrArg mk (hperm.eq_of_pairwise ?_ ht hu)
  intro m n _ _ hmn hnm
  exact absurd hnm hmn.not_gt

/-- What is found under a name is what the last registration under it adds. -/
theorem find?_eq_some_iff_lastUnder {rs : List (Registration σ)} {name : String} {m : Method σ} :
    (ofRegistrations rs).find? name = some m ↔ LastUnder rs name m := by
  induction rs using List.reverseRecOn with
  | nil =>
      constructor
      · exact nofun
      · rintro ⟨earlier, r, later, hsplit, -⟩
        exact absurd hsplit.symm (List.append_ne_nil_of_right_ne_nil _ (List.cons_ne_nil _ _))
  | append_singleton rs r ih =>
      rw [ofRegistrations_append_singleton, lastUnder_append_singleton, ← ih]
      simp only [Registration.adds_iff]
      cases hr : r.method? with
      | none => simp [registered_of_none hr]
      | some n =>
          rw [registered_of_some hr, find?_insert]
          by_cases hname : n.name = name
          · rw [if_pos hname]
            constructor
            · rintro ⟨⟩
              exact Or.inl ⟨rfl, hname⟩
            · rintro (⟨hm, -⟩ | ⟨-, hother⟩)
              · exact hm
              · exact absurd hname (hother n rfl)
          · rw [if_neg hname]
            constructor
            · intro hfind
              refine Or.inr ⟨hfind, ?_⟩
              rintro _ ⟨⟩
              exact hname
            · rintro (⟨⟨⟩, hm⟩ | ⟨hfind, -⟩)
              · exact absurd hm hname
              · exact hfind

/-- There is a method of a name exactly if some registration was read as one of that name. -/
theorem isSome_find?_iff {rs : List (Registration σ)} {name : String} :
    ((ofRegistrations rs).find? name).isSome ↔ ∃ r ∈ rs, ∃ m, r.Adds m ∧ m.name = name := by
  rw [find?_ofRegistrations, List.find?_isSome]
  simp only [List.mem_reverse, List.mem_filterMap, decide_eq_true_eq, Registration.adds_iff]
  constructor
  · rintro ⟨m, ⟨r, hr, hm⟩, hname⟩
    exact ⟨r, hr, m, hm, hname⟩
  · rintro ⟨r, hr, m, hm, hname⟩
    exact ⟨m, ⟨r, hr, hm⟩, hname⟩

/-- Exactly the names are listed under which a method is found. -/
theorem Ordered.mem_names_iff {t : MethodTable σ} (h : t.Ordered) {name : String} :
    name ∈ t.names ↔ (t.find? name).isSome := by
  rw [names, List.mem_map, Option.isSome_iff_exists]
  constructor
  · rintro ⟨m, hm, rfl⟩
    exact ⟨m, h.mem_iff.mp hm⟩
  · rintro ⟨m, hm⟩
    exact ⟨m, List.mem_of_find?_eq_some hm, name_of_find? hm⟩

theorem Ordered.names_pairwise {t : MethodTable σ} (h : t.Ordered) :
    t.names.Pairwise (· < ·) := List.pairwise_map.mpr h

/-- A table in order has as many methods as there are names with one. -/
theorem Ordered.size_eq {t : MethodTable σ} (h : t.Ordered) :
    t.size = {name | (t.find? name).isSome}.ncard := by
  have hnodup : t.names.Nodup := h.names_pairwise.imp fun hlt => hlt.ne
  have hset : {name | (t.find? name).isSome} = (t.names.toFinset : Set String) := by
    ext name
    rw [Set.mem_ofPred_eq, Finset.mem_coe, List.mem_toFinset, h.mem_names_iff]
  rw [hset, Set.ncard_coe_finset, List.toFinset_card_of_nodup hnodup, names, List.length_map]
  rfl

/-! ## One registration -/

/-- A registration of which the text is no signature fails and says so, and the table stays as it
    was; any other puts in the method that it adds. -/
theorem register_cases (t : MethodTable σ) (r : Registration σ) :
    (∃ d, Signature.parse r.text r.terms.parameterNames = .error d
        ∧ t.register r.text r.handler r.terms = .error (.invalidSignature r.text d.message)
        ∧ t.registered r = t)
      ∨ ∃ m, r.Adds m
        ∧ (∃ j, t.register r.text r.handler r.terms = .ok (t.registered r, j))
        ∧ ∀ name, (t.registered r).find? name
          = if m.name = name then some m else t.find? name := by
  cases hsig : Signature.parse r.text r.terms.parameterNames with
  | error d =>
      have hfail : t.register r.text r.handler r.terms
          = .error (.invalidSignature r.text d.message) := by
        simp only [register, methodOf, hsig]
        rfl
      refine Or.inl ⟨d, rfl, hfail, ?_⟩
      rw [registered, hfail]
  | ok sig =>
      have hmethod : r.method? = some (Method.make sig r.handler r.terms) :=
        Registration.method?_eq_some_iff.mpr ⟨sig, hsig, rfl⟩
      have hinsert := registered_of_some hmethod t
      refine Or.inr ⟨_, Registration.adds_iff.mpr hmethod,
        ⟨t.registrationJournal (Method.make sig r.handler r.terms), ?_⟩, ?_⟩
      · rw [hinsert]
        simp only [register, methodOf, hsig]
        rfl
      · intro name
        rw [hinsert, find?_insert]

/-! ## Runs of registrations -/

/-- A table is the map that some registrations write, and it lists what is in that map. Under a
    name is found what the last registration under it adds, which has that name, and nothing under
    a name that no registration is read with (`found`, `keyed`, `missing`). Exactly the methods
    that are found are listed, in strict order of their names (`listed`, `ordered`, `live`), the
    description has an entry for each of these names in order (`described`), and the size is the
    number of names that were read. -/
structure Maps (t : MethodTable σ) (rs : List (Registration σ)) : Prop where
  found : ∀ name m, t.find? name = some m ↔ LastUnder rs name m
  missing : ∀ name, t.find? name = none ↔ ∀ r ∈ rs, ∀ m, r.Adds m → m.name ≠ name
  keyed : ∀ name m, t.find? name = some m → m.name = name
  listed : ∀ m, m ∈ t.methods ↔ t.find? m.name = some m
  ordered : t.names.Pairwise (· < ·)
  live : ∀ name, name ∈ t.names ↔ (t.find? name).isSome
  described : ∃ entries, t.describe = .arr entries
    ∧ entries.map (·.get? "name") = t.names.map fun name => some (.str name)
  size : t.size = {name | ∃ r ∈ rs, ∃ m, r.Adds m ∧ m.name = name}.ncard

/-- The table of some registrations is the map that they write. -/
theorem ofRegistrations_maps (rs : List (Registration σ)) : (ofRegistrations rs).Maps rs where
  found _ _ := find?_eq_some_iff_lastUnder
  missing name := by
    rw [← Option.not_isSome_iff_eq_none, isSome_find?_iff]
    simp only [not_exists, not_and]
  keyed _ _ := name_of_find?
  listed _ := (ordered_ofRegistrations rs).mem_iff
  ordered := (ordered_ofRegistrations rs).names_pairwise
  live _ := (ordered_ofRegistrations rs).mem_names_iff
  described := by
    refine ⟨_, rfl, ?_⟩
    rw [names, List.map_map, List.map_map]
    refine List.map_congr_left ?_
    intro m _
    exact m.describe_name
  size := by
    rw [(ordered_ofRegistrations rs).size_eq]
    simp only [isSome_find?_iff]

/-- The last registration counts. One registration that fails says why and changes nothing, and
    one that is read puts its method under its name. After any run of registrations, failed and
    repeated ones among them, the table is the map that they write, listed in the order of the
    names. And two runs that agree on the last registration of every name end in the same listing
    and the same description, however else they differ. -/
theorem last_registration_counts (rs : List (Registration σ)) :
    (∀ (t : MethodTable σ) (r : Registration σ),
        (∃ d, Signature.parse r.text r.terms.parameterNames = .error d
          ∧ t.register r.text r.handler r.terms = .error (.invalidSignature r.text d.message)
          ∧ t.registered r = t)
        ∨ ∃ m, r.Adds m
          ∧ (∃ j, t.register r.text r.handler r.terms = .ok (t.registered r, j))
          ∧ ∀ name, (t.registered r).find? name
            = if m.name = name then some m else t.find? name)
      ∧ (ofRegistrations rs).Maps rs
      ∧ ∀ qs : List (Registration σ),
        (∀ name m, LastUnder rs name m ↔ LastUnder qs name m) →
          (ofRegistrations rs).methods = (ofRegistrations qs).methods
            ∧ (ofRegistrations rs).describe = (ofRegistrations qs).describe := by
  refine ⟨register_cases, ofRegistrations_maps rs, ?_⟩
  intro qs hlast
  have hsame : ofRegistrations rs = ofRegistrations qs := by
    -- tables in order are the same if they find the same
    refine (ordered_ofRegistrations rs).ext (ordered_ofRegistrations qs) ?_
    intro name
    refine Option.ext ?_
    intro m
    rw [find?_eq_some_iff_lastUnder, find?_eq_some_iff_lastUnder, hlast]
  exact ⟨congrArg methods hsame, congrArg describe hsame⟩

end MethodTable

/-- A name registered twice, another one in between, and a text that is no signature. -/
def crowdedRegistrations : List (Registration Nat) :=
  [⟨"zeta", fun _ _ n => (.value .null, n), { authenticated := true }⟩,
    ⟨"alpha", fun _ _ n => (.value (.ofInt n), n), { parameterNames := ["at"] }⟩,
    ⟨"zeta(", fun _ _ n => (.panic none, n), {}⟩,
    ⟨"zeta(n=Number) -> Nil", fun _ _ n => (.value .null, n + 1), { safe := true }⟩]

/-- What counts of them, the other way round and with other blanks. -/
def sparseRegistrations : List (Registration Nat) :=
  [⟨"zeta( n = Number )->Nil", fun _ _ n => (.value .null, n + 1), { safe := true }⟩,
    ⟨"alpha", fun _ _ n => (.value (.ofInt n), n), { parameterNames := ["at"] }⟩]

/-- Both runs end in the same listing, `alpha` with the names that were suggested for it and `zeta`
    as it was registered last. -/
theorem crowded_listed_as_sparse :
    (∀ name m, LastUnder crowdedRegistrations name m ↔ LastUnder sparseRegistrations name m)
      ∧ (MethodTable.ofRegistrations crowdedRegistrations).methods
        = (MethodTable.ofRegistrations sparseRegistrations).methods
      ∧ (MethodTable.ofRegistrations crowdedRegistrations).methods.map
          (fun m => (m.name, m.safe, m.authenticated, m.parameterNames))
        = [("alpha", false, false, ["at"]), ("zeta", true, false, ["n"])] := by
  let alpha : Method Nat :=
    .make (.wildcard "alpha") (fun _ _ n => (.value (.ofInt n), n)) { parameterNames := ["at"] }
  let zeta : Method Nat :=
    .make ⟨"zeta", some [⟨"n", .number⟩], .nil⟩ (fun _ _ n => (.value .null, n + 1))
      { safe := true }
  let oldZeta : Method Nat :=
    .make (.wildcard "zeta") (fun _ _ n => (.value .null, n)) { authenticated := true }
  have hcrowded : (crowdedRegistrations.filterMap Registration.method?).reverse
      = [zeta, alpha, oldZeta] := rfl
  have hsparse : (sparseRegistrations.filterMap Registration.method?).reverse
      = [alpha, zeta] := rfl
  have hlast : ∀ name m,
      LastUnder crowdedRegistrations name m ↔ LastUnder sparseRegistrations name m := by
    intro name m
    rw [← MethodTable.find?_eq_some_iff_lastUnder, ← MethodTable.find?_eq_some_iff_lastUnder,
      MethodTable.find?_ofRegistrations, MethodTable.find?_ofRegistrations, hcrowded, hsparse]
    by_cases hzeta : "zeta" = name
    · obtain rfl := hzeta
      exact Iff.rfl
    · -- the old method is not found either
      have hname : ∀ n ∈ [zeta, oldZeta], ¬ n.name = name := by
        intro n hn
        rcases List.mem_pair.mp hn with rfl | rfl
        · exact hzeta
        · exact hzeta
      simp [hname]
  obtain ⟨-, -, hsame⟩ := MethodTable.last_registration_counts crowdedRegistrations
  exact ⟨hlast, (hsame sparseRegistrations hlast).1, by decide +kernel⟩

end Switchboard
