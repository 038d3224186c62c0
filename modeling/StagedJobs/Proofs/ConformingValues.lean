import StagedJobs.Proofs.FlatValidation
import StagedJobs.Proofs.ParameterConditions
import StagedJobs.Proofs.SoundConversion

namespace StagedJobs

open Outcomes

namespace ParameterDraft

variable {d : ParameterDraft} {p : ParameterSpec} {w : Value}

/-- A value that is within all bounds given and, where values are given as the ones allowed, is equal to
what one of them is converted to. -/
structure Conforms (d : ParameterDraft) (w : Value) : Prop where
  minValue : ∀ bound ∈ d.constraints.minValue, ¬ (Constraint.minValue bound).Violated w
  maxValue : ∀ bound ∈ d.constraints.maxValue, ¬ (Constraint.maxValue bound).Violated w
  minLength : ∀ bound ∈ d.constraints.minLength, ¬ (Constraint.minLength bound).Violated w
  maxLength : ∀ bound ∈ d.constraints.maxLength, ¬ (Constraint.maxLength bound).Violated w
  allowedValues : ∀ values ∈ d.constraints.allowedValues,
    ∃ v ∈ values, ∃ a, d.type.coerce d.name v = .ok a ∧ a.same w = true

theorem forall_allowed_iff {allowed : Option (List Value)} (h : d.coerceAllowed = .ok allowed) :
    (∀ values ∈ allowed, ¬ (Constraint.allowedValues values).Violated w) ↔
      ∀ values ∈ d.constraints.allowedValues,
        ∃ v ∈ values, ∃ a, d.type.coerce d.name v = .ok a ∧ a.same w = true := by
  rcases exists_of_coerceAllowed h with ⟨hnone, rfl⟩ | ⟨values, converted, hsome, hmapM, rfl⟩
  · simp [hnone]
  · simp only [hsome, Option.mem_some_iff, forall_eq', Constraint.not_violated_allowedValues_iff]
    constructor
    · rintro ⟨a, ha, hsame⟩
      obtain ⟨v, hv, hcoerce⟩ := exists_of_mem_mapM hmapM ha
      exact ⟨v, hv, a, hcoerce, hsame⟩
    · rintro ⟨v, hv, a, hcoerce, hsame⟩
      obtain ⟨b, hb, hcoerce'⟩ := exists_mem_of_mapM hmapM hv
      obtain rfl := Except.ok.inj (hcoerce.symm.trans hcoerce')
      exact ⟨a, hb, hsame⟩

theorem conforms_iff_of_build (h : d.build = .ok p) :
    d.Conforms w ↔ ∀ c ∈ p.constraints.inOrder, ¬ c.Violated w := by
  obtain ⟨-, -, -, allowed, hallowed, default, -, rfl⟩ := build_eq_ok_iff.mp h
  rw [Constraints.forall_mem_inOrder, forall_allowed_iff hallowed]
  constructor
  · intro hconforms
    exact ⟨hconforms.minValue, hconforms.maxValue, hconforms.minLength, hconforms.maxLength,
      hconforms.allowedValues⟩
  · rintro ⟨hminValue, hmaxValue, hminLength, hmaxLength, hallowed⟩
    exact ⟨hminValue, hmaxValue, hminLength, hmaxLength, hallowed⟩

end ParameterDraft

namespace ParameterSpec

variable {s : ParameterSpec} {raw w : Value}

theorem validate_of_coerce_eq_error {e : ValidationError} (hraw : raw ≠ .null)
    (h : s.type.coerce s.name raw = .error e) : s.validate (some raw) = .error e := by
  rw [validate_of_ne_null hraw, ParameterDraft.conform, h]
  rfl

theorem validate_of_coerce_eq_ok (hraw : raw ≠ .null) (h : s.type.coerce s.name raw = .ok w) :
    s.validate (some raw) = match s.constraints.firstViolated? w with
      | some c => .error (.constraintViolation s.name c w)
      | none => .ok (some w) := by
  rw [validate_of_ne_null hraw, ParameterDraft.conform, h]
  cases hfirst : s.constraints.firstViolated? w with
  | some c => simp [Constraints.check, hfirst, bind, Except.bind, Except.map]
  | none => simp [Constraints.check, hfirst, bind, Except.bind, Except.map, pure, Except.pure]

/-- A value has to be supplied where there is none, not even a default, and one is required. -/
theorem validate_eq_missingRequired_iff {input : Option Value} {name : String} :
    s.validate input = .error (.missingRequired name) ↔
      (input = none ∨ input = some .null) ∧ s.mustBeSupplied = true ∧ name = s.name := by
  by_cases hnull : input.getD .null = .null
  · have hinput : input = none ∨ input = some .null := by
      cases input with
      | none => exact .inl rfl
      | some v => exact .inr (congrArg some hnull)
    have hnone : s.validate none = s.fallback := validate_eq_fallback rfl
    rw [validate_eq_fallback hnull, ← hnone, validate_none_eq_error_iff, and_iff_right hinput,
      ValidationError.missingRequired.injEq]
  · cases input with
    | none => exact absurd rfl hnull
    | some v =>
        have hv : v ≠ .null := hnull
        have hinput : ¬ (some v = none ∨ some v = some .null) := by simpa using hv
        refine iff_of_false ?_ fun h => hinput h.1
        intro hmissing
        cases hcoerce : s.type.coerce s.name v with
        | error e =>
            rw [validate_of_coerce_eq_error hv hcoerce] at hmissing
            have hreport := (ParamType.coerce_eq_error_iff.mp hcoerce).2
            obtain rfl := Except.error.inj hmissing
            split at hreport <;> cases hreport
        | ok w =>
            rw [validate_of_coerce_eq_ok hv hcoerce] at hmissing
            split at hmissing <;> cases hmissing

end ParameterSpec

/-- A parameter accepts the values that, once converted, conform to the settings that it was built from,
as what they are converted to. It rejects a value that cannot be converted for that, and one that does
not conform for the first of its constraints that is violated, for which a number is past a bound by
its exact value; what is past a bound by its exact value violates it, if binary64 keeps that value, as
it does those of floats and of whole numbers up to `2 ^ 53`. That a value is missing is said just where
there is none, nor a default, and one is required. -/
theorem ParameterDraft.validate_of_build {name : String} {type : ParamType} {settings : List Setting}
    {p : ParameterSpec} (h : (ofSettings name type settings).build = .ok p) :
    (∀ raw, raw ≠ .null →
      (∀ e, type.coerce name raw = .error e →
        p.validate (some raw) = .error e ∧
          (e = .typeCoercion name type raw ∨ e = .typeMismatch name type raw)) ∧
      ∀ w, type.coerce name raw = .ok w →
        (p.validate (some raw) = .ok (some w) ↔ (described name type settings).Conforms w) ∧
        (¬ (described name type settings).Conforms w →
          ∃ c, p.constraints.FirstViolated c w ∧
            p.validate (some raw) = .error (.constraintViolation name c w))) ∧
    (∀ bound (n : Number),
      ((Constraint.minValue bound).Violated (.number n) → bound.Exceeds n.value) ∧
        ((Constraint.maxValue bound).Violated (.number n) → bound.FallsShort n.value)) ∧
    (∀ bound (n : Number), n.IsExact →
      ((Constraint.minValue bound).Violated (.number n) ↔ bound.Exceeds n.value) ∧
        ((Constraint.maxValue bound).Violated (.number n) ↔ bound.FallsShort n.value)) ∧
    (∀ x, (Number.float x).IsExact) ∧
    (∀ n : Whole, n.val.natAbs ≤ 2 ^ 53 → (Number.whole n).IsExact) ∧
    (∀ v, ¬ (Constraint.minValue .nan).Violated v ∧ ¬ (Constraint.maxValue .nan).Violated v) ∧
    ∀ input missing, p.validate input = .error (.missingRequired missing) ↔
      (input = none ∨ input = some .null) ∧ (described name type settings).required = true ∧
        (described name type settings).default = none ∧ missing = name := by
  rw [ofSettings_eq_described] at h
  have hnormal := normalizes_of_build h
  have hname : p.name = name := hnormal.name
  have htype : p.type = type := hnormal.type
  refine ⟨?_, ?_, ?_, Number.isExact_float, fun _ => Number.isExact_whole, ?_, ?_⟩
  · intro raw hraw
    constructor
    · intro e he
      refine ⟨ParameterSpec.validate_of_coerce_eq_error hraw (by rw [hname, htype, he]), ?_⟩
      rw [(ParamType.coerce_eq_error_iff.mp he).2]
      split
      · exact .inr rfl
      · exact .inl rfl
    · intro w hw
      have hvalidate := ParameterSpec.validate_of_coerce_eq_ok (s := p) hraw (by rw [hname, htype, hw])
      rw [conforms_iff_of_build h, ← Constraints.firstViolated?_eq_none_iff, hvalidate, hname]
      cases hfirst : p.constraints.firstViolated? w with
      | none => simp
      | some c =>
          simp only [reduceCtorEq, not_false_eq_true, forall_const, true_and]
          exact ⟨c, Constraints.firstViolated_of_eq_some hfirst, rfl⟩
  · intro bound n
    rw [Constraint.violated_minValue_iff, Constraint.violated_maxValue_iff]
    exact ⟨Number.exceeds_of_below, Number.fallsShort_of_below⟩
  · intro bound n hexact
    rw [Constraint.violated_minValue_iff, Constraint.violated_maxValue_iff]
    exact ⟨Number.below_iff_exceeds hexact, Number.below_iff_fallsShort hexact⟩
  · intro v
    constructor
    · intro hviolated
      cases hviolated with
      | minValue hbelow => exact Binary64.not_below_nan hbelow
    · intro hviolated
      cases hviolated with
      | maxValue hbelow => exact Binary64.not_nan_below hbelow
  · intro input missing
    have hdefault : p.default = none ↔ (described name type settings).default = none := by
      have hrel := hnormal.default
      generalize (described name type settings).default = given, p.default = stored at hrel
      cases hrel <;> simp
    rw [ParameterSpec.validate_eq_missingRequired_iff, ParameterSpec.mustBeSupplied, hname,
      Bool.and_eq_true, Option.isNone_iff_eq_none, hdefault, hnormal.required, and_assoc]

/-- A parameter for short texts, of which a number and a text that is too long are allowed. -/
def codeSettings : List ParameterDraft.Setting :=
  [.minValue .nan, .maxLength 3, .required true, .allowedValues [.ofInt64 42, .string "abcd"]]

def code : ParameterSpec where
  name := "code"
  type := .string
  required := true
  default := none
  description := ""
  constraints :=
    { minValue := some .nan
      maxLength := some 3
      allowedValues := some [.string "42", .string "abcd"] }

theorem code_validated :
    (ParameterDraft.ofSettings "code" .string codeSettings).build = .ok code ∧
      code.validate (some (.ofInt64 42)) = .ok (some (.string "42")) ∧
      (∃ c, code.constraints.FirstViolated c (.string "abcd") ∧
        code.validate (some (.string "abcd")) =
          .error (.constraintViolation "code" c (.string "abcd"))) ∧
      code.validate none = .error (.missingRequired "code") := by
  have hbuild : (ParameterDraft.ofSettings "code" .string codeSettings).build = .ok code := by
    cbv
  have hnumber : ParamType.string.coerce "code" (.ofInt64 42) = .ok (.string "42") := by
    cbv
  have hconforms : (ParameterDraft.described "code" .string codeSettings).Conforms (.string "42") :=
    { minValue := by
        intro bound hbound hviolated
        cases hviolated
      maxValue := by
        intro bound hbound hviolated
        cases hviolated
      minLength := by
        intro bound hbound
        cases hbound
      maxLength := by
        intro bound hbound hviolated
        obtain rfl : 3 = bound := Option.some.inj hbound
        cases hviolated with
        | maxLength hlength hpast =>
            cases hlength with
            | string => exact absurd hpast (by decide)
      allowedValues := by
        intro values hvalues
        obtain rfl := Option.some.inj hvalues
        exact ⟨.ofInt64 42, List.mem_cons_self, .string "42", hnumber, rfl⟩ }
  have hlong : ¬ (ParameterDraft.described "code" .string codeSettings).Conforms (.string "abcd") :=
    fun hconforms => hconforms.maxLength 3 rfl (.maxLength (.string "abcd") (by decide))
  obtain ⟨hvalidate, -, -, -, -, -, hmissing⟩ := ParameterDraft.validate_of_build hbuild
  obtain ⟨-, hshort⟩ := hvalidate (.ofInt64 42) (by simp [Value.ofInt64])
  obtain ⟨-, hrejected⟩ := hvalidate (.string "abcd") (by simp)
  exact ⟨hbuild, (hshort _ hnumber).1.mpr hconforms, (hrejected _ rfl).2 hlong,
    (hmissing none "code").mpr ⟨.inl rfl, rfl, rfl, rfl⟩⟩

/-- An integer that may be `2 ^ 53` at most. -/
def upToExact : ParameterSpec where
  name := "n"
  type := .integer
  required := false
  default := none
  description := ""
  constraints := { maxValue := some (.ofInt (9007199254740992 : Int64).toInt) }

/-- The number past the bound is accepted, as it is rounded to the bound. -/
theorem roundedToBound_accepted :
    (ParameterDraft.ofSettings "n" .integer
        [.maxValue (.ofInt (9007199254740992 : Int64).toInt)]).build = .ok upToExact ∧
      ParamType.integer.coerce "n" (.ofInt64 9007199254740993) = .ok (.ofInt64 9007199254740993) ∧
      (Binary64.ofInt (9007199254740992 : Int64).toInt).FallsShort
        (Number.whole (.ofInt64 9007199254740993)).value ∧
      upToExact.validate (some (.ofInt64 9007199254740993)) =
        .ok (some (.ofInt64 9007199254740993)) := by
  have hcoerce : ParamType.integer.coerce "n" (.ofInt64 9007199254740993) =
      .ok (.ofInt64 9007199254740993) := rfl
  have hshort : (Binary64.ofInt (9007199254740992 : Int64).toInt).FallsShort
      (Number.whole (.ofInt64 9007199254740993)).value := by
    obtain ⟨x, hx, hvalue, -⟩ := Binary64.toInt?_ofInt
      (n := (9007199254740992 : Int64).toInt) (by decide)
    rw [hx]
    refine .finite ?_
    rw [Binary64.Finite.toInt?_eq_some_iff.mp hvalue, Number.value, Int.cast_lt]
    decide
  have hmeets : upToExact.constraints.firstViolated? (.ofInt64 9007199254740993) = none := by
    decide +kernel
  refine ⟨rfl, hcoerce, hshort, ?_⟩
  rw [ParameterSpec.validate_of_coerce_eq_ok (by simp [Value.ofInt64]) hcoerce, hmeets]

end StagedJobs
