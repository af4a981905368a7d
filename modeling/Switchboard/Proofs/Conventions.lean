import Switchboard.Proofs.Binding
import Switchboard.Proofs.Rendering
import Switchboard.Proofs.Validation
import Switchboard.Proofs.Values

/-!
# By position or by name

The arguments of a call are a list, or they stand under the names of the
parameters. A checked method goes through a list position by position and
through named arguments parameter by parameter, in two loops that share
nothing. Here they are shown to decide the same: arguments pass by position
exactly if they pass under their names, because a signature that has been read
never declares one name twice.
-/

namespace Switchboard

variable {σ : Type}

namespace Members

/-- Under the name of each parameter stands the value at its position. There may be more members. -/
def Spell (members : Members) (declared : List Parameter) (vs : List Json) : Prop :=
  List.Forall₂ (fun p v => members.lookup p.name = some v) declared vs

/-- The parameters that members give under their names are of the declared kinds exactly if the
    values at the positions are. -/
theorem Spell.admitted_iff {members : Members} {declared : List Parameter} {vs : List Json}
    (h : members.Spell declared vs) :
    (∀ p ∈ declared, ∃ v, members.lookup p.name = some v ∧ p.kind.admits v = true)
      ↔ List.Forall₂ (fun p v => p.kind.admits v = true) declared vs := by
  unfold Spell at h
  induction h with
  | nil => simp
  | @cons p v ps vs hlookup _ ih =>
      rw [List.forall_mem_cons, List.forall₂_cons, ih, hlookup]
      simp

/-- Different names can be given any values. -/
theorem exists_spell {declared : List Parameter} (hdistinct : (declared.map (·.name)).Nodup)
    {vs : List Json} (hlength : vs.length = declared.length) :
    ∃ members : Members, members.Sorted ∧ members.Spell declared vs := by
  have hkeys : (((declared.map (·.name)).zip vs).map Prod.fst).Nodup := by
    rw [List.map_fst_zip (by rw [List.length_map, hlength])]
    exact hdistinct
  refine ⟨_, ofList_sorted ((declared.map (·.name)).zip vs),
    List.forall₂_iff_zip.mpr ⟨hlength.symm, ?_⟩⟩
  intro p v hpv
  have hmem : (p.name, v) ∈ (declared.map (·.name)).zip vs := by
    rw [List.zip_map_left]
    exact List.mem_map.mpr ⟨(p, v), hpv, rfl⟩
  -- no name comes twice, so none of the pairs is lost when they are sorted
  rw [lookup_eq_of_perm hkeys (ofList_perm_of_nodup hkeys)]
  exact (lookup_eq_some_iff_mem hkeys).mpr hmem

end Members

namespace Method

variable {m : Method σ} {declared : List Parameter}

/-- Arguments that do not fit a checked method are refused as invalid. -/
theorem checkParams_of_misfit {params : Params} (hvalidate : m.validate = true)
    (hmisfit : ¬ m.signature.Fits params) :
    ∃ reason, m.checkParams params = .error (.invalidParams reason) := by
  cases hcheck : m.checkParams params with
  | ok u => exact absurd (checkParams_eq_ok_iff.mp hcheck hvalidate) hmisfit
  | error f =>
      obtain ⟨reason, rfl⟩ := invalidParams_of_checkParams hcheck
      exact ⟨reason, rfl⟩

/-- Values in a row pass exactly if there is one of the right kind for each parameter. -/
theorem checkParams_positional_iff (hvalidate : m.validate = true)
    (hdeclared : m.signature.parameters? = some declared) {vs : List Json} :
    m.checkParams (.positional vs) = .ok ()
      ↔ List.Forall₂ (fun p v => p.kind.admits v = true) declared vs := by
  rw [checkParams_eq_ok_iff, ← Signature.fits_positional_iff hdeclared]
  exact forall_prop_of_true hvalidate

/-- Values by name pass exactly if each parameter has one of the right kind under its name. -/
theorem checkParams_named_iff (hvalidate : m.validate = true)
    (hdeclared : m.signature.parameters? = some declared) {members : Members} :
    m.checkParams (.named members) = .ok ()
      ↔ ∀ p ∈ declared, ∃ v, members.lookup p.name = some v ∧ p.kind.admits v = true := by
  rw [checkParams_eq_ok_iff, ← Signature.fits_named_iff hdeclared]
  exact forall_prop_of_true hvalidate

end Method

/-- A method that is found declares every parameter under a name of its own. -/
theorem MethodTable.distinct_of_find? {rs : List (Registration σ)} {name : String} {m : Method σ}
    (hfind : (ofRegistrations rs).find? name = some m) : m.signature.parameterNames.Nodup := by
  obtain ⟨r, -, hmethod⟩ := exists_registration hfind
  obtain ⟨sig, hparse, rfl⟩ := Registration.method?_eq_some_iff.mp hmethod
  exact Signature.distinct_of_parse hparse

/-- Either way of giving arguments. Take a checked method that has been registered with a parameter
    list. Values pass by position exactly if they pass under the names of the parameters, whatever
    else is given, and that is if each is of the declared kind; and values for all parameters can
    always be given under their names. More or fewer values than parameters, and named arguments
    without one of the parameters, are refused as invalid. -/
theorem MethodTable.positional_ok_iff_named_ok {rs : List (Registration σ)} {name : String}
    {m : Method σ} {declared : List Parameter}
    (hfind : (ofRegistrations rs).find? name = some m) (hvalidate : m.validate = true)
    (hdeclared : m.signature.parameters? = some declared) :
    (∀ vs (members : Members), members.Spell declared vs →
        (m.checkParams (.positional vs) = .ok () ↔ m.checkParams (.named members) = .ok ())
          ∧ (m.checkParams (.positional vs) = .ok ()
            ↔ List.Forall₂ (fun p v => p.kind.admits v = true) declared vs))
      ∧ (∀ vs, vs.length = declared.length →
        ∃ members : Members, members.Sorted ∧ members.Spell declared vs)
      ∧ (∀ vs, vs.length ≠ declared.length →
        ∃ reason, m.checkParams (.positional vs) = .error (.invalidParams reason))
      ∧ ∀ members : Members, (∃ p ∈ declared, members.lookup p.name = none) →
        ∃ reason, m.checkParams (.named members) = .error (.invalidParams reason) := by
  refine ⟨?_, ?_, ?_, ?_⟩
  · intro vs members hspell
    rw [Method.checkParams_positional_iff hvalidate hdeclared,
      Method.checkParams_named_iff hvalidate hdeclared, hspell.admitted_iff]
    exact ⟨Iff.rfl, Iff.rfl⟩
  · intro vs hlength
    -- a signature that has been registered has no name twice
    have hdistinct := distinct_of_find? hfind
    rw [Signature.parameterNames, Signature.parameters, hdeclared] at hdistinct
    exact Members.exists_spell hdistinct hlength
  · intro vs hlength
    refine Method.checkParams_of_misfit hvalidate ?_
    intro hfits
    exact hlength ((Signature.fits_positional_iff hdeclared).mp hfits).length_eq.symm
  · rintro members ⟨p, hp, hmissing⟩
    refine Method.checkParams_of_misfit hvalidate ?_
    intro hfits
    obtain ⟨v, hlookup, -⟩ := (Signature.fits_named_iff hdeclared).mp hfits p hp
    exact nomatch hmissing.symm.trans hlookup

/-- A method that is registered again, now to be checked and with a name for the first of two
    parameters. -/
def boxRegistrations : List (Registration Nat) :=
  [⟨"box(num)", fun _ _ n => (.value .null, n), {}⟩,
    ⟨"box(num, b=any)", fun _ _ n => (.value .null, n + 1),
      { validate := true, parameterNames := ["width"] }⟩]

/-- The parameters that it declares. -/
def boxParameters : List Parameter := [⟨"width", .number⟩, ⟨"b", .any⟩]

/-- The method that comes of it. -/
def boxMethod : Method Nat :=
  .make ⟨"box", some boxParameters, .any⟩ (fun _ _ n => (.value .null, n + 1))
    { validate := true, parameterNames := ["width"] }

/-- Two values pass either way, a text in place of the width passes neither way, and one value alone
    is refused both ways. -/
theorem box_given_either_way :
    (MethodTable.ofRegistrations boxRegistrations).find? "box" = some boxMethod
      ∧ boxMethod.validate = true ∧ boxMethod.signature.parameters? = some boxParameters
      ∧ Members.Spell [("b", .null), ("c", .bool true), ("width", .num (.int 3))] boxParameters
          [.num (.int 3), .null]
      ∧ boxMethod.checkParams (.positional [.num (.int 3), .null]) = .ok ()
      ∧ boxMethod.checkParams (.named [("b", .null), ("c", .bool true), ("width", .num (.int 3))])
        = .ok ()
      ∧ (∃ members : Members, members.Sorted ∧ members.Spell boxParameters [.str "3", .null]
        ∧ boxMethod.checkParams (.positional [.str "3", .null]) ≠ .ok ()
        ∧ boxMethod.checkParams (.named members) ≠ .ok ())
      ∧ (∃ reason, boxMethod.checkParams (.positional [.num (.int 3)])
        = .error (.invalidParams reason))
      ∧ ∃ reason, boxMethod.checkParams (.named [("width", .num (.int 3))])
        = .error (.invalidParams reason) := by
  have hfind : (MethodTable.ofRegistrations boxRegistrations).find? "box" = some boxMethod := rfl
  have hspell : Members.Spell [("b", .null), ("c", .bool true), ("width", .num (.int 3))]
      boxParameters [.num (.int 3), .null] := .cons rfl (.cons rfl .nil)
  obtain ⟨hagree, hexists, hcount, hmissing⟩ :=
    MethodTable.positional_ok_iff_named_ok hfind rfl rfl
  obtain ⟨hsame, hpositional⟩ := hagree _ _ hspell
  have hpass := hpositional.mpr (.cons rfl (.cons rfl .nil))
  obtain ⟨members, hsorted, hother⟩ := hexists [.str "3", .null] rfl
  obtain ⟨hsame', hpositional'⟩ := hagree _ _ hother
  have hfail : boxMethod.checkParams (.positional [.str "3", .null]) ≠ .ok () := by
    intro hok
    obtain ⟨hwidth, -⟩ := List.forall₂_cons.mp (hpositional'.mp hok)
    exact nomatch hwidth
  exact ⟨hfind, rfl, rfl, hspell, hpass, hsame.mp hpass,
    ⟨members, hsorted, hother, hfail, fun hok => hfail (hsame'.mpr hok)⟩,
    hcount [.num (.int 3)] (by decide),
    hmissing [("width", .num (.int 3))] ⟨⟨"b", .any⟩, by decide, rfl⟩⟩

end Switchboard
