import StagedJobs.Proofs.Catalogue.Lexemes
import StagedJobs.Proofs.ExactValues
import StagedJobs.Proofs.Revalidation

namespace StagedJobs

namespace ParamType

variable {type : ParamType} {name : String} {v w : Value} {x : Binary64.Finite}

theorem coerce_eq_error_iff {e : ValidationError} :
    type.coerce name v = .error e ↔
      type.convert? v = none ∧
        e = if type = .object ∨ type = .list then .typeMismatch name type v
          else .typeCoercion name type v := by
  have hstrict : type.isStrict = true ↔ type = .object ∨ type = .list := by
    cases type <;> decide
  rw [coerce]
  cases hconvert : type.convert? v with
  | some w => simp
  | none =>
      simp only [hstrict, true_and]
      split <;> simp [eq_comm]

theorem convert?_integer_float_iff :
    integer.convert? (.number (.float x)) = some w ↔
      ∃ n : Int64, x.value = n.toInt ∧ w = .ofInt64 n := by
  have hread : ∀ n, (Binary64.finite x).toInt64? = some n ↔ x.value = n.toInt := by
    intro n
    rw [Binary64.toInt64?, Option.bind_eq_some_iff]
    constructor
    · rintro ⟨z, hz, hn⟩
      rw [Catalogue.int64?_eq_some hn]
      exact Binary64.Finite.toInt?_eq_some_iff.mp hz
    · intro hx
      exact ⟨n.toInt, Binary64.Finite.toInt?_eq_some_iff.mpr hx, Catalogue.int64?_toInt n⟩
  rw [convert?, Value.toInteger?, Option.map_eq_some_iff]
  simp only [hread, eq_comm (a := w)]

theorem exists_convert?_integer_float_iff :
    (∃ w, integer.convert? (.number (.float x)) = some w) ↔
      (∃ z : Int, x.value = z) ∧ -2 ^ 63 ≤ x.value ∧ x.value < 2 ^ 63 := by
  simp only [convert?_integer_float_iff]
  constructor
  · rintro ⟨w, n, hx, -⟩
    refine ⟨⟨n.toInt, hx⟩, ?_, ?_⟩
    · rw [hx]
      exact_mod_cast n.le_toInt
    · rw [hx]
      exact_mod_cast n.toInt_lt
  · rintro ⟨⟨z, hx⟩, hlow, hhigh⟩
    rw [hx] at hlow hhigh
    have hz : (Int64.ofInt z).toInt = z :=
      Int64.toInt_ofInt_of_le (by exact_mod_cast hlow) (by exact_mod_cast hhigh)
    exact ⟨_, Int64.ofInt z, by rw [hz]; exact hx, rfl⟩

theorem convert?_string_eq_none_iff : string.convert? v = none ↔ v = .null := by
  cases v <;> simp [convert?, Value.toString?]

/-- Conversion gives values of the kind of the type, null only for null where any value is allowed, and
leaves values of that kind as they are, so converting again changes nothing. A floating-point number is
converted to the whole number that it is, if 64 signed bits hold that. What cannot be converted is
reported as it was, under the name and the type; only of null there is no string, and any value at all
is a value of any kind. -/
theorem coerce_sound (type : ParamType) (name : String) (v : Value) :
    (∀ w, type.coerce name v = .ok w →
      type.Holds w ∧ (type = .any → w = v) ∧ (w = .null → type = .any ∧ v = .null) ∧
        type.coerce name w = .ok w) ∧
    (type.Holds v → type.coerce name v = .ok v) ∧
    (∀ x : Binary64.Finite,
      ((∃ w, integer.coerce name (.number (.float x)) = .ok w) ↔
        (∃ z : Int, x.value = z) ∧ -2 ^ 63 ≤ x.value ∧ x.value < 2 ^ 63) ∧
      ∀ w, integer.coerce name (.number (.float x)) = .ok w →
        ∃ n : Whole, w = .number (.whole n) ∧ n.val = x.value) ∧
    (∀ e, type.coerce name v = .error e →
      e = if type = .object ∨ type = .list then .typeMismatch name type v
        else .typeCoercion name type v) ∧
    any.coerce name v = .ok v ∧
    ((∃ e, string.coerce name v = .error e) ↔ v = .null) := by
  refine ⟨?_, ?_, ?_, ?_, rfl, ?_⟩
  · intro w hw
    rw [coerce_eq_ok_iff] at hw
    refine ⟨holds_of_convert? hw, ?_, ?_, coerce_eq_ok_iff.mpr (convert?_of_convert? hw)⟩
    · rintro rfl
      exact (Option.some.inj hw).symm
    · rintro rfl
      obtain rfl := eq_any_of_holds_null (holds_of_convert? hw)
      exact ⟨rfl, Option.some.inj hw⟩
  · intro hv
    exact coerce_eq_ok_iff.mpr (convert?_of_holds hv)
  · intro x
    simp only [coerce_eq_ok_iff]
    refine ⟨exists_convert?_integer_float_iff, ?_⟩
    intro w hw
    obtain ⟨n, hx, rfl⟩ := convert?_integer_float_iff.mp hw
    exact ⟨.ofInt64 n, rfl, hx.symm⟩
  · intro e he
    exact (coerce_eq_error_iff.mp he).2
  · simp only [coerce_eq_error_iff, exists_and_left, exists_eq, and_true]
    exact convert?_string_eq_none_iff

/-- The least number of 64 signed bits, as a floating-point one. -/
def leastFloat : Binary64.Finite where
  negative := true
  rank := 1086 <<< 52
  rank_lt := by decide

theorem leastFloat_converted :
    leastFloat.value = -2 ^ 63 ∧
      integer.coerce "n" (.number (.float leastFloat)) = .ok (.ofInt64 Int64.minValue) ∧
      integer.Holds (.ofInt64 Int64.minValue) ∧
      integer.coerce "n" (.ofInt64 Int64.minValue) = .ok (.ofInt64 Int64.minValue) := by
  have hvalue : leastFloat.value = ((-2 ^ 63 : Int) : ℚ) :=
    Binary64.Finite.value_eq_intCast_iff.mpr (by decide +kernel)
  have hcoerce : integer.coerce "n" (.number (.float leastFloat)) = .ok (.ofInt64 Int64.minValue) :=
    coerce_eq_ok_iff.mpr (convert?_integer_float_iff.mpr ⟨Int64.minValue, hvalue, rfl⟩)
  obtain ⟨hsound, -⟩ := coerce_sound integer "n" (.number (.float leastFloat))
  obtain ⟨hholds, -, -, hagain⟩ := hsound _ hcoerce
  exact ⟨by exact_mod_cast hvalue, hcoerce, hholds, hagain⟩

end ParamType

end StagedJobs
