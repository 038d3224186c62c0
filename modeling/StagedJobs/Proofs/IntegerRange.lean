import StagedJobs.Proofs.Revalidation
import StagedJobs.Proofs.Rounding

namespace StagedJobs

open Outcomes

namespace Constraints

/-- A least and a greatest value, and no other condition. -/
def between (least greatest : Binary64) : Constraints where
  minValue := some least
  maxValue := some greatest

theorem firstViolated?_between {least greatest x : Binary64} {v : Value}
    (hx : v.toBinary64? = some x) :
    (between least greatest).firstViolated? v =
      if x.less least then some (.minValue least)
      else if greatest.less x then some (.maxValue greatest)
      else none := by
  have hleast : (Constraint.minValue least).meets v = !x.less least := by
    rw [Constraint.meets, hx, Option.all_some]
  have hgreatest : (Constraint.maxValue greatest).meets v = !greatest.less x := by
    rw [Constraint.meets, hx, Option.all_some]
  have horder : (between least greatest).inOrder = [.minValue least, .maxValue greatest] := rfl
  rw [firstViolated?, horder, List.find?_cons, List.find?_cons, List.find?_nil, hleast, hgreatest,
    Bool.not_not, Bool.not_not]
  cases x.less least with
  | true => rfl
  | false =>
      cases greatest.less x with
      | true => rfl
      | false => rfl

end Constraints

namespace ParameterDraft

variable {d : ParameterDraft} {least greatest : Binary64}

theorem coerceAllowed_of_between (h : d.constraints = .between least greatest) :
    d.coerceAllowed = .ok none := by
  rw [coerceAllowed, h]
  rfl

theorem exists_build_of_between (h : d.constraints = .between least greatest)
    (hrange : greatest.less least = false) (hname : isIdentifier d.name = true)
    (hdefault : d.default = none) : ∃ s, d.build = .ok s := by
  have hvalue : d.checkValueRange = .ok () := by
    simp [checkValueRange, h, Constraints.between, hrange]
  have hlength : d.checkLengthRange = .ok () := by
    rw [checkLengthRange, h]
    rfl
  have hkept : ∀ c, d.coerceDefault c = .ok none := by
    intro c
    rw [coerceDefault, hdefault]
  exact ⟨_, build_eq_ok_iff.mpr ⟨checkIdentifier_eq_ok_iff.mpr hname, hvalue, hlength, none,
    coerceAllowed_of_between h, none, hkept _, rfl⟩⟩

theorem conform_integer_between {name : String} (v : Whole) :
    conform name .integer (.between least greatest) (.number (.whole v)) =
      if (Binary64.ofInt v.val).less least then
        .error (.constraintViolation name (.minValue least) (.number (.whole v)))
      else if greatest.less (.ofInt v.val) then
        .error (.constraintViolation name (.maxValue greatest) (.number (.whole v)))
      else .ok (.number (.whole v)) := by
  have hcheck : ∀ c, conform name .integer c (.number (.whole v)) =
      (c.check name (.number (.whole v))).map fun _ => .number (.whole v) := fun _ => rfl
  have hx : (Value.number (.whole v)).toBinary64? = some (.ofInt v.val) := rfl
  rw [hcheck, Constraints.check, Constraints.firstViolated?_between hx]
  cases (Binary64.ofInt v.val).less least with
  | true => rfl
  | false =>
      cases greatest.less (.ofInt v.val) with
      | true => rfl
      | false => rfl

end ParameterDraft

namespace Catalogue.ParamEntry

/-- An integer parameter that is declared with a least and a greatest value, in this order. -/
structure Ranges (p : ParamEntry) (least greatest : Int64) : Prop where
  type : ParamType.ofName? p.type = some .integer
  constraints : p.constraints = [("min_value", .int least), ("max_value", .int greatest)]

namespace Ranges

variable {p : ParamEntry} {least greatest : Int64} {s : ParameterSpec}

theorem exists_draft (h : p.Ranges least greatest) :
    ∃ d, p.draft = .ok d ∧ d.name = p.name ∧ d.type = .integer ∧
      d.default = p.default.map Literal.toValue ∧
        d.constraints = .between (.ofInt least.toInt) (.ofInt greatest.toInt) := by
  have htype : p.paramType = .ok .integer := by
    rw [paramType, h.type]
  have hconstraints : p.constraints.foldlM addConstraint {} =
      .ok (.between (.ofInt least.toInt) (.ofInt greatest.toInt)) := by
    rw [h.constraints]
    rfl
  rw [draft, htype, hconstraints]
  exact ⟨_, rfl, rfl, rfl, rfl, rfl⟩

theorem parts_of_build (h : p.Ranges least greatest) (hs : p.build = .ok s) :
    s.name = p.name ∧ s.type = .integer ∧
      s.constraints = .between (.ofInt least.toInt) (.ofInt greatest.toInt) := by
  obtain ⟨d, hdraft, hname, htype, -, hconstraints⟩ := h.exists_draft
  obtain ⟨d', hdraft', hbuild⟩ := bind_eq_ok.mp hs
  obtain rfl := Except.ok.inj (hdraft.symm.trans hdraft')
  obtain ⟨-, -, -, allowed, hallowed, default, -, rfl⟩ :=
    ParameterDraft.build_eq_ok_iff.mp (mapError_eq_ok.mp hbuild)
  rw [ParameterDraft.coerceAllowed_of_between hconstraints] at hallowed
  obtain rfl := Except.ok.inj hallowed
  refine ⟨hname, htype, ?_⟩
  rw [hconstraints]
  rfl

theorem exists_build (h : p.Ranges least greatest) (hle : least.toInt ≤ greatest.toInt)
    (hname : isIdentifier p.name = true) (hdefault : p.default = none) :
    ∃ s, p.build = .ok s := by
  obtain ⟨d, hdraft, hdname, -, hddefault, hconstraints⟩ := h.exists_draft
  have hrange : (Binary64.ofInt greatest.toInt).less (.ofInt least.toInt) = false := by
    rw [← Bool.not_eq_true, Binary64.less_ofInt_iff]
    omega
  have hnone : d.default = none := by
    rw [hddefault, hdefault, Option.map_none]
  obtain ⟨s, hs⟩ :=
    ParameterDraft.exists_build_of_between hconstraints hrange (hdname ▸ hname) hnone
  exact ⟨s, bind_eq_ok.mpr ⟨d, hdraft, mapError_eq_ok.mpr hs⟩⟩

theorem validate_eq (h : p.Ranges least greatest) (hs : p.build = .ok s) (v : Whole) :
    s.validate (some (.number (.whole v))) =
      (ParameterDraft.conform p.name .integer (.between (.ofInt least.toInt) (.ofInt greatest.toInt))
        (.number (.whole v))).map some := by
  obtain ⟨hname, htype, hconstraints⟩ := h.parts_of_build hs
  rw [ParameterSpec.validate_of_ne_null (by simp), hname, htype, hconstraints]

section Validation

variable {v : Whole}

theorem validate_of_below (h : p.Ranges least greatest) (hs : p.build = .ok s)
    (hv : v.val < least.toInt) (hne : Binary64.ofInt v.val ≠ .ofInt least.toInt) :
    s.validate (some (.number (.whole v))) =
      .error (.constraintViolation p.name (.minValue (.ofInt least.toInt)) (.number (.whole v))) := by
  rw [h.validate_eq hs, ParameterDraft.conform_integer_between,
    if_pos (Binary64.less_ofInt_iff.mpr ⟨hv, hne⟩), Except.map]

theorem validate_of_above (h : p.Ranges least greatest) (hs : p.build = .ok s)
    (hle : least.toInt ≤ greatest.toInt) (hv : greatest.toInt < v.val)
    (hne : Binary64.ofInt v.val ≠ .ofInt greatest.toInt) :
    s.validate (some (.number (.whole v))) =
      .error (.constraintViolation p.name (.maxValue (.ofInt greatest.toInt))
        (.number (.whole v))) := by
  have hleast : ¬ (Binary64.ofInt v.val).less (.ofInt least.toInt) = true := by
    rw [Binary64.less_ofInt_iff]
    omega
  rw [h.validate_eq hs, ParameterDraft.conform_integer_between, if_neg hleast,
    if_pos (Binary64.less_ofInt_iff.mpr ⟨hv, hne.symm⟩), Except.map]

theorem validate_of_within (h : p.Ranges least greatest) (hs : p.build = .ok s)
    (hleast : least.toInt ≤ v.val ∨ Binary64.ofInt v.val = .ofInt least.toInt)
    (hgreatest : v.val ≤ greatest.toInt ∨ Binary64.ofInt v.val = .ofInt greatest.toInt) :
    s.validate (some (.number (.whole v))) = .ok (some (.number (.whole v))) := by
  have hnotBelow : ¬ (Binary64.ofInt v.val).less (.ofInt least.toInt) = true := by
    rw [Binary64.less_ofInt_iff]
    rintro ⟨hlt, hne⟩
    exact hleast.elim (not_le.mpr hlt) hne
  have hnotAbove : ¬ (Binary64.ofInt greatest.toInt).less (.ofInt v.val) = true := by
    rw [Binary64.less_ofInt_iff]
    rintro ⟨hlt, hne⟩
    exact hgreatest.elim (not_le.mpr hlt) hne.symm
  rw [h.validate_eq hs, ParameterDraft.conform_integer_between, if_neg hnotBelow,
    if_neg hnotAbove, Except.map]

theorem validate_eq_ok_iff (h : p.Ranges least greatest) (hs : p.build = .ok s)
    (hle : least.toInt ≤ greatest.toInt) :
    s.validate (some (.number (.whole v))) = .ok (some (.number (.whole v))) ↔
      (least.toInt ≤ v.val ∨ Binary64.ofInt v.val = .ofInt least.toInt) ∧
        (v.val ≤ greatest.toInt ∨ Binary64.ofInt v.val = .ofInt greatest.toInt) := by
  constructor
  · intro hok
    constructor
    · by_contra hbelow
      rw [not_or, not_le] at hbelow
      rw [h.validate_of_below hs hbelow.1 hbelow.2] at hok
      cases hok
    · by_contra habove
      rw [not_or, not_le] at habove
      rw [h.validate_of_above hs hle habove.1 habove.2] at hok
      cases hok
  · rintro ⟨hleast, hgreatest⟩
    exact h.validate_of_within hs hleast hgreatest

end Validation

/-- Of the whole numbers those within the bounds are accepted, and those past a bound that are rounded
to the same number as it. Other numbers are rejected for the bound that they are past. Where the
number, or each of the bounds, is below `2 ^ 53`, just those within the bounds are accepted. -/
theorem validate_whole (h : p.Ranges least greatest) (hle : least.toInt ≤ greatest.toInt) :
    (isIdentifier p.name = true → p.default = none → ∃ s, p.build = .ok s) ∧
    ∀ s, p.build = .ok s → ∀ v : Whole,
      (s.validate (some (.number (.whole v))) = .ok (some (.number (.whole v))) ↔
        (least.toInt ≤ v.val ∨ Binary64.ofInt v.val = .ofInt least.toInt) ∧
          (v.val ≤ greatest.toInt ∨ Binary64.ofInt v.val = .ofInt greatest.toInt)) ∧
      (v.val < least.toInt → Binary64.ofInt v.val ≠ .ofInt least.toInt →
        s.validate (some (.number (.whole v))) = .error (.constraintViolation p.name
          (.minValue (.ofInt least.toInt)) (.number (.whole v)))) ∧
      (greatest.toInt < v.val → Binary64.ofInt v.val ≠ .ofInt greatest.toInt →
        s.validate (some (.number (.whole v))) = .error (.constraintViolation p.name
          (.maxValue (.ofInt greatest.toInt)) (.number (.whole v)))) ∧
      (v.val.natAbs < 2 ^ 53 ∨
          least.toInt.natAbs < 2 ^ 53 ∧ greatest.toInt.natAbs < 2 ^ 53 →
        (s.validate (some (.number (.whole v))) = .ok (some (.number (.whole v))) ↔
          least.toInt ≤ v.val ∧ v.val ≤ greatest.toInt)) := by
  refine ⟨h.exists_build hle, ?_⟩
  intro s hs v
  refine ⟨h.validate_eq_ok_iff hs hle, h.validate_of_below hs, h.validate_of_above hs hle, ?_⟩
  intro hsmall
  have hexact : ∀ bound : Int, v.val.natAbs < 2 ^ 53 ∨ bound.natAbs < 2 ^ 53 →
      Binary64.ofInt v.val = .ofInt bound → v.val = bound := by
    rintro bound (hv | hbound) heq
    · exact (Binary64.eq_of_ofInt_eq heq.symm hv).symm
    · exact Binary64.eq_of_ofInt_eq heq hbound
  have hleast := hexact least.toInt (hsmall.imp_right And.left)
  have hgreatest := hexact greatest.toInt (hsmall.imp_right And.right)
  rw [h.validate_eq_ok_iff hs hle]
  constructor
  · rintro ⟨hlow | hlow, hhigh | hhigh⟩
    · exact ⟨hlow, hhigh⟩
    · exact ⟨hlow, (hgreatest hhigh).le⟩
    · exact ⟨(hleast hlow).ge, hhigh⟩
    · exact ⟨(hleast hlow).ge, (hgreatest hhigh).le⟩
  · rintro ⟨hlow, hhigh⟩
    exact ⟨.inl hlow, .inl hhigh⟩

end Ranges

/-- The parameter `n` of these bounds, of which nothing else is said. -/
def bounded (least greatest : Int64) : ParamEntry where
  name := "n"
  type := "integer"
  required := false
  default := none
  constraints := [("min_value", .int least), ("max_value", .int greatest)]
  description := none

theorem bounded_ranges (least greatest : Int64) : (bounded least greatest).Ranges least greatest :=
  ⟨rfl, rfl⟩

theorem percentage_validated :
    ∃ s, (bounded 0 100).build = .ok s ∧
      s.validate (some (.number (.whole (.ofInt64 100)))) =
        .ok (some (.number (.whole (.ofInt64 100)))) ∧
      s.validate (some (.number (.whole (.ofInt64 101)))) = .error (.constraintViolation "n"
        (.maxValue (.ofInt (100 : Int64).toInt)) (.number (.whole (.ofInt64 101)))) := by
  obtain ⟨hbuild, hvalidate⟩ := (bounded_ranges 0 100).validate_whole (by decide)
  obtain ⟨s, hs⟩ := hbuild (by decide) rfl
  obtain ⟨-, -, -, hexact⟩ := hvalidate s hs (.ofInt64 100)
  obtain ⟨-, -, habove, -⟩ := hvalidate s hs (.ofInt64 101)
  exact ⟨s, hs, (hexact (.inl (by decide))).mpr (by decide),
    habove (by decide) (by decide +kernel)⟩

/-- Where only `2 ^ 53` should be accepted, the number past it is as well. -/
theorem pastGreatest_accepted :
    ∃ s, (bounded 9007199254740992 9007199254740992).build = .ok s ∧
      ∃ v : Whole, (9007199254740992 : Int64).toInt < v.val ∧
        s.validate (some (.number (.whole v))) = .ok (some (.number (.whole v))) := by
  have hranges := bounded_ranges 9007199254740992 9007199254740992
  obtain ⟨s, hs⟩ := hranges.exists_build (Int.le_refl _) (by decide) rfl
  have hrounded : Binary64.ofInt (Whole.ofInt64 9007199254740993).val =
      .ofInt (9007199254740992 : Int64).toInt := by decide +kernel
  exact ⟨s, hs, .ofInt64 9007199254740993, by decide,
    hranges.validate_of_within hs (.inr hrounded) (.inr hrounded)⟩

end Catalogue.ParamEntry

end StagedJobs
