import StagedJobs.Proofs.GivenSettings
import StagedJobs.Proofs.OrderedConditions
import StagedJobs.Proofs.Revalidation
import StagedJobs.Proofs.ViolatedConstraints

namespace StagedJobs

open Outcomes

def ParamType.coercible (type : ParamType) (name : String) (v : Value) : Condition ValidationError where
  holds := ∃ w, type.coerce name v = .ok w
  reports e := type.coerce name v = .error e

theorem ParamType.coerce_judgedBy (type : ParamType) (name : String) (v : Value) :
    JudgedBy (type.coerce name v) [type.coercible name v] := by
  refine .single Iff.rfl fun e => ?_
  refine (and_iff_right_of_imp ?_).symm
  rintro herror ⟨w, hw⟩
  rw [herror] at hw
  simp at hw

def Constraint.met (constraint : Constraint) (name : String) (v : Value) :
    Condition ValidationError where
  holds := ¬ constraint.Violated v
  reports e := e = .constraintViolation name constraint v

theorem Constraints.check_judgedBy (c : Constraints) (name : String) (v : Value) :
    JudgedBy (c.check name v) (c.inOrder.map (·.met name v)) := by
  have hfind := JudgedBy.find? (fun constraint : Constraint => !constraint.meets v)
    (fun constraint => ValidationError.constraintViolation name constraint v) c.inOrder
  simp only [Bool.not_eq_false', Constraint.meets_eq_true_iff] at hfind
  rw [check, firstViolated?]
  cases hfound : c.inOrder.find? fun constraint => !constraint.meets v with
  | none =>
      rw [hfound] at hfind
      exact hfind
  | some violated =>
      rw [hfound] at hfind
      exact hfind

namespace ParameterDraft

/-- The conditions on a value: it can be converted, and what it is converted to meets the constraints,
in their order. -/
def conformity (name : String) (type : ParamType) (c : Constraints) (v : Value) :
    List (Condition ValidationError) :=
  type.coercible name v ::
    c.inOrder.map fun constraint => .onResult (type.coerce name v) (constraint.met name)

/-- The constraints with the allowed values converted, those that can be. -/
def coercedConstraints (d : ParameterDraft) : Constraints :=
  { d.constraints with
    allowedValues := d.constraints.allowedValues.map (outcomes (d.type.coerce d.name)) }

/-- The conditions on a parameter, in the order in which they are judged. The default is held against
the allowed values as converted. -/
def conditions (d : ParameterDraft) : List (Condition DefinitionError) :=
  [⟨isIdentifier d.name = true, (· = .invalidIdentifier .parameterName d.name)⟩,
    ordered d.constraints.minValue d.constraints.maxValue
      (fun least greatest => greatest.Below least) (.invalidRange d.name .value),
    ordered d.constraints.minLength d.constraints.maxLength (fun least greatest => greatest < least)
      fun least greatest => .invalidRange d.name .length (.ofInt least) (.ofInt greatest)] ++
  (d.constraints.allowedValues.getD []).map (fun v =>
    (d.type.coercible d.name v).within (.invalidAllowedValue d.name)) ++
  d.default.toList.flatMap fun v =>
    (conformity d.name d.type d.coercedConstraints v).map (·.within (.invalidDefault d.name))

theorem conform_judgedBy (name : String) (type : ParamType) (c : Constraints) (v : Value) :
    JudgedBy (conform name type c v) (conformity name type c v) := by
  refine (type.coerce_judgedBy name v).bind fun w hw => ?_
  simp only [Condition.onResult_of_eq_ok hw]
  rw [← List.append_nil (List.map _ _)]
  exact (c.check_judgedBy name w).bind fun _ _ => .pure w

theorem coerceAllowed_judgedBy (d : ParameterDraft) :
    JudgedBy d.coerceAllowed
      ((d.constraints.allowedValues.getD []).map fun v =>
        (d.type.coercible d.name v).within (.invalidAllowedValue d.name)) := by
  rw [coerceAllowed]
  cases d.constraints.allowedValues with
  | none => exact .pure none
  | some values =>
      have hvalues : JudgedBy (values.mapM (d.type.coerce d.name)) (values.map _) :=
        .mapM (d.type.coerce_judgedBy d.name)
      have hall : JudgedBy (((values.mapM (d.type.coerce d.name)).map some).mapError
          (DefinitionError.invalidAllowedValue d.name)) _ := hvalues.map.mapError
      rw [List.map_map] at hall
      simp only [Option.getD_some]
      cases hmapM : values.mapM (d.type.coerce d.name) with
      | ok converted =>
          rw [hmapM] at hall
          exact hall
      | error e =>
          rw [hmapM] at hall
          exact hall

theorem coerceDefault_judgedBy (d : ParameterDraft) (c : Constraints) :
    JudgedBy (d.coerceDefault c)
      (d.default.toList.flatMap fun v =>
        (conformity d.name d.type c v).map (·.within (.invalidDefault d.name))) := by
  rw [coerceDefault]
  cases d.default with
  | none => exact .pure none
  | some v =>
      have hconform : JudgedBy (((conform d.name d.type c v).map some).mapError
          (DefinitionError.invalidDefault d.name)) _ := (conform_judgedBy d.name d.type c v).map.mapError
      simp only [Option.toList_some, List.flatMap_singleton]
      cases hresult : conform d.name d.type c v with
      | ok converted =>
          rw [hresult] at hconform
          exact hconform
      | error e =>
          rw [hresult] at hconform
          exact hconform

theorem exists_of_coerceAllowed {d : ParameterDraft} {allowed : Option (List Value)}
    (h : d.coerceAllowed = .ok allowed) :
    (d.constraints.allowedValues = none ∧ allowed = none) ∨
      ∃ values converted, d.constraints.allowedValues = some values ∧
        values.mapM (d.type.coerce d.name) = .ok converted ∧ allowed = some converted := by
  rw [coerceAllowed] at h
  split at h
  · rename_i hnone
    exact .inl ⟨hnone, (Except.ok.inj h).symm⟩
  · rename_i values hsome
    split at h
    · rename_i converted hconverted
      exact .inr ⟨values, converted, hsome, hconverted, (Except.ok.inj h).symm⟩
    · simp at h

theorem rel_of_coerceAllowed {d : ParameterDraft} {allowed : Option (List Value)}
    (h : d.coerceAllowed = .ok allowed) :
    Option.Rel (List.Forall₂ fun v w => d.type.coerce d.name v = .ok w)
      d.constraints.allowedValues allowed := by
  rcases exists_of_coerceAllowed h with ⟨hnone, rfl⟩ | ⟨values, converted, hsome, hmapM, rfl⟩
  · rw [hnone]
    exact .none
  · rw [hsome]
    exact .some (forall₂_of_mapM hmapM)

/-- Where all allowed values can be converted, the constraints have all of them converted. -/
theorem coercedConstraints_eq {d : ParameterDraft} {allowed : Option (List Value)}
    (h : d.coerceAllowed = .ok allowed) :
    d.coercedConstraints = { d.constraints with allowedValues := allowed } := by
  rw [coercedConstraints]
  rcases exists_of_coerceAllowed h with ⟨hnone, rfl⟩ | ⟨values, converted, hsome, hmapM, rfl⟩
  · rw [hnone, Option.map_none]
  · rw [hsome, Option.map_some, (mapM_eq_ok_iff.mp hmapM).2]

/-- A parameter has the form that building a draft gives: all of the draft, with each allowed value and
the default converted. -/
structure Normalizes (d : ParameterDraft) (p : ParameterSpec) : Prop where
  name : p.name = d.name
  type : p.type = d.type
  required : p.required = d.required
  description : p.description = d.description
  constraints : p.constraints =
    { d.constraints with allowedValues := p.constraints.allowedValues }
  allowedValues : Option.Rel (List.Forall₂ fun v w => d.type.coerce d.name v = .ok w)
    d.constraints.allowedValues p.constraints.allowedValues
  default : Option.Rel (fun v w => d.type.coerce d.name v = .ok w) d.default p.default

theorem rel_of_coerceDefault {d : ParameterDraft} {c : Constraints} {default : Option Value}
    (h : d.coerceDefault c = .ok default) :
    Option.Rel (fun v w => d.type.coerce d.name v = .ok w) d.default default := by
  rw [coerceDefault] at h
  split at h
  · rename_i hnone
    obtain rfl := Except.ok.inj h
    rw [hnone]
    exact .none
  · rename_i hsome
    split at h
    · rename_i hconform
      obtain rfl := Except.ok.inj h
      rw [hsome]
      exact .some (ParamType.coerce_eq_ok_iff.mpr (conform_eq_ok_iff.mp hconform).1)
    · simp at h

theorem normalizes_of_build {d : ParameterDraft} {p : ParameterSpec} (h : d.build = .ok p) :
    d.Normalizes p := by
  obtain ⟨-, -, -, allowed, hallowed, default, hdefault, rfl⟩ := build_eq_ok_iff.mp h
  exact
    { name := rfl
      type := rfl
      required := rfl
      description := rfl
      constraints := rfl
      allowedValues := rel_of_coerceAllowed hallowed
      default := rel_of_coerceDefault hdefault }

theorem checkValueRange_judgedBy (d : ParameterDraft) :
    JudgedBy d.checkValueRange
      [ordered d.constraints.minValue d.constraints.maxValue
        (fun least greatest => greatest.Below least) (.invalidRange d.name .value)] := by
  have hordered := judgedBy_ordered d.constraints.minValue d.constraints.maxValue
    (fun least greatest => greatest.less least) (DefinitionError.invalidRange d.name .value)
  simp only [Binary64.less_eq_true_iff] at hordered
  rw [checkValueRange]
  generalize d.constraints.minValue = least, d.constraints.maxValue = greatest at hordered ⊢
  cases least <;> cases greatest <;> exact hordered

theorem checkLengthRange_judgedBy (d : ParameterDraft) :
    JudgedBy d.checkLengthRange
      [ordered d.constraints.minLength d.constraints.maxLength
        (fun least greatest => greatest < least) fun least greatest =>
          .invalidRange d.name .length (.ofInt least) (.ofInt greatest)] := by
  have hordered := judgedBy_ordered d.constraints.minLength d.constraints.maxLength
    (fun least greatest => greatest < least) fun least greatest =>
      DefinitionError.invalidRange d.name .length (.ofInt least) (.ofInt greatest)
  rw [checkLengthRange]
  generalize d.constraints.minLength = least, d.constraints.maxLength = greatest at hordered ⊢
  cases least <;> cases greatest <;> exact hordered

theorem build_judgedBy (d : ParameterDraft) : JudgedBy d.build d.conditions := by
  have hend : ∀ allowed, d.coerceAllowed = .ok allowed → JudgedBy (do
      let default ← d.coerceDefault { d.constraints with allowedValues := allowed }
      return (⟨d.name, d.type, d.required, default, d.description,
        { d.constraints with allowedValues := allowed }⟩ : ParameterSpec))
      (d.default.toList.flatMap fun v =>
        (conformity d.name d.type d.coercedConstraints v).map (·.within (.invalidDefault d.name))) := by
    intro allowed hallowed
    rw [coercedConstraints_eq hallowed, ← List.append_nil (List.flatMap _ _)]
    exact (coerceDefault_judgedBy d _).bind fun default _ => .pure _
  rw [conditions, List.append_assoc]
  exact (checkIdentifier_judgedBy _ _).bind fun _ _ =>
    (checkValueRange_judgedBy d).bind fun _ _ =>
      (checkLengthRange_judgedBy d).bind fun _ _ =>
        (coerceAllowed_judgedBy d).bind fun allowed hallowed => hend allowed hallowed

end ParameterDraft

namespace ParameterSpec

variable {p : ParameterSpec} {v : Value}

/-- The settings that a parameter can be built from anew. -/
def settings (p : ParameterSpec) : List ParameterDraft.Setting :=
  [.required p.required, .description p.description, .constraints p.constraints] ++
    (p.default.map ParameterDraft.Setting.default).toList

theorem ofSettings_settings (p : ParameterSpec) :
    ParameterDraft.ofSettings p.name p.type p.settings = p.redraft := by
  cases p with
  | mk name type required default description constraints =>
      cases default <;> rfl

theorem validate_default (hp : p.Settled) (hdefault : p.default = some v) (hv : v ≠ .null) :
    p.validate (some v) = .ok (some v) :=
  validate_of_conform hv (hp v hdefault)

theorem fallback_of_default (hdefault : p.default = some v) : p.fallback = .ok (some v) := by
  rw [fallback, hdefault]

end ParameterSpec

/-- A build from settings is judged by the conditions on what the settings describe. What comes out of
it is that in the converted form: its default is what validation gives for it, unless it is null, and for
no value; and built anew it stays as it is. -/
theorem ParameterDraft.judgedBy_conditions_and_normalizes (name : String) (type : ParamType)
    (settings : List Setting) :
    JudgedBy (ofSettings name type settings).build (described name type settings).conditions ∧
      ∀ p, (ofSettings name type settings).build = .ok p →
        (described name type settings).Normalizes p ∧
          (∀ v, p.default = some v → v ≠ .null → p.validate (some v) = .ok (some v)) ∧
          (∀ v, p.default = some v →
            p.validate none = .ok (some v) ∧ p.validate (some .null) = .ok (some v)) ∧
          (ofSettings p.name p.type p.settings).build = .ok p := by
  refine ⟨?_, ?_⟩
  · rw [ofSettings_eq_described]
    exact build_judgedBy _
  · intro p hbuild
    have hbuilt : p.Built := ⟨name, type, settings, hbuild⟩
    rw [ofSettings_eq_described] at hbuild
    refine ⟨normalizes_of_build hbuild, ?_, ?_, ?_⟩
    · intro v hdefault hv
      exact ParameterSpec.validate_default hbuilt.settled hdefault hv
    · intro v hdefault
      have hfallback := ParameterSpec.fallback_of_default hdefault
      exact ⟨hfallback, hfallback⟩
    · rw [ParameterSpec.ofSettings_settings]
      exact hbuilt.build_redraft

/-- A parameter that is given texts for numbers, allowed ones and a default. -/
def levelSettings : List ParameterDraft.Setting :=
  [.allowedValues [.string "1", .string "2"], .default (.string " 2 "), .required true]

def level : ParameterSpec where
  name := "level"
  type := .integer
  required := true
  default := some (.ofInt64 2)
  description := ""
  constraints := { allowedValues := some [.ofInt64 1, .ofInt64 2] }

theorem level_build :
    (ParameterDraft.ofSettings "level" .integer levelSettings).build = .ok level ∧
      level.validate (some (.ofInt64 2)) = .ok (some (.ofInt64 2)) ∧
      level.validate none = .ok (some (.ofInt64 2)) ∧
      (ParameterDraft.ofSettings "level" .integer level.settings).build = .ok level := by
  have hbuild : (ParameterDraft.ofSettings "level" .integer levelSettings).build = .ok level := by
    rfl
  obtain ⟨-, hok⟩ :=
    ParameterDraft.judgedBy_conditions_and_normalizes "level" .integer levelSettings
  obtain ⟨-, hsame, hdefault, hrebuild⟩ := hok level hbuild
  exact ⟨hbuild, hsame _ rfl (by simp [Value.ofInt64]), (hdefault _ rfl).1, hrebuild⟩

end StagedJobs
