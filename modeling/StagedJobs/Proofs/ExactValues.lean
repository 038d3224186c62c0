import Mathlib.Algebra.Order.Field.Rat
import Mathlib.Data.Rat.Cast.Order
import Mathlib.Tactic.FieldSimp
import StagedJobs.Json.Value
import StagedJobs.Proofs.Rounding

namespace StagedJobs

namespace Binary64

namespace Finite

/-- The magnitude in units of `2 ^ -1074`, under the sign. -/
def signedUnits (x : Finite) : Int := if x.negative then -(units x.rank : Int) else units x.rank

/-- The exact value. -/
def value (x : Finite) : ℚ := x.signedUnits / unitsPerOne

variable {x y : Finite}

theorem signedUnits_lt_iff : x.signedUnits < y.signedUnits ↔ x.place < y.place := by
  have hzero : units 0 = 0 := by decide
  have hlt : units x.rank < units y.rank ↔ x.rank < y.rank := units_strictMono.lt_iff_lt
  have hgt : units y.rank < units x.rank ↔ y.rank < x.rank := units_strictMono.lt_iff_lt
  have hx : units 0 < units x.rank ↔ 0 < x.rank := units_strictMono.lt_iff_lt
  have hy : units 0 < units y.rank ↔ 0 < y.rank := units_strictMono.lt_iff_lt
  rw [hzero] at hx hy
  simp only [signedUnits, place]
  split <;> split <;> omega

theorem unitsPerOne_cast_pos : (0 : ℚ) < unitsPerOne := by
  exact_mod_cast (by decide : 0 < unitsPerOne)

theorem value_lt_iff : x.value < y.value ↔ x.place < y.place := by
  rw [value, value, div_lt_div_iff_of_pos_right unitsPerOne_cast_pos, Int.cast_lt,
    signedUnits_lt_iff]

theorem value_lt_intCast_iff {n : Int} : x.value < n ↔ x.signedUnits < n * unitsPerOne := by
  rw [value, div_lt_iff₀ unitsPerOne_cast_pos]
  norm_cast

theorem intCast_lt_value_iff {n : Int} : n < x.value ↔ n * unitsPerOne < x.signedUnits := by
  rw [value, lt_div_iff₀ unitsPerOne_cast_pos]
  norm_cast

theorem value_eq_intCast_iff {n : Int} : x.value = n ↔ x.signedUnits = n * unitsPerOne := by
  rw [value, div_eq_iff (ne_of_gt unitsPerOne_cast_pos)]
  norm_cast

theorem toInt?_eq_some_iff {n : Int} : x.toInt? = some n ↔ x.value = n := by
  have hpos : 0 < unitsPerOne := by decide
  rw [value_eq_intCast_iff, toInt?, signedUnits]
  generalize unitsPerOne = u at hpos ⊢
  generalize units x.rank = m
  constructor
  · intro h
    split at h
    case isFalse => cases h
    case isTrue hmod =>
      have hm : ((m / u : Nat) : Int) * u = m := by
        exact_mod_cast Nat.div_mul_cancel (Nat.dvd_of_mod_eq_zero hmod)
      rw [← Option.some.inj h]
      split
      · rw [Int.neg_mul, hm]
      · exact hm.symm
  · intro h
    have hm : m = n.natAbs * u := by
      have habs := congrArg Int.natAbs h
      rw [Int.natAbs_mul, Int.natAbs_natCast] at habs
      rw [← habs]
      split <;> simp
    have hmod : m % u = 0 := by rw [hm, Nat.mul_mod_left]
    have hdiv : m / u = n.natAbs := by rw [hm, Nat.mul_div_cancel _ hpos]
    rw [if_pos hmod, hdiv]
    have hsign : 0 < (u : Int) := by exact_mod_cast hpos
    split
    case isTrue hneg =>
      rw [if_pos hneg] at h
      have hn : n ≤ 0 := by
        by_contra hcontra
        have := Int.mul_pos (by omega : 0 < n) hsign
        omega
      rw [Int.ofNat_natAbs_of_nonpos hn]
      exact congrArg some (Int.neg_neg n)
    case isFalse hneg =>
      rw [if_neg hneg] at h
      have hn : 0 ≤ n := by
        by_contra hcontra
        have := Int.mul_neg_of_neg_of_pos (by omega : n < 0) hsign
        omega
      rw [Int.natAbs_of_nonneg hn]

end Finite

/-- Of two numbers the first is the lesser one. -/
inductive Below : Binary64 → Binary64 → Prop
  | finite {x y : Finite} (h : x.value < y.value) : Below (.finite x) (.finite y)
  | infinite : Below (.infinite true) (.infinite false)
  | finite_infinite (x : Finite) : Below (.finite x) (.infinite false)
  | infinite_finite (x : Finite) : Below (.infinite true) (.finite x)

theorem not_below_nan {x : Binary64} : ¬ x.Below .nan := nofun

theorem not_nan_below {x : Binary64} : ¬ Binary64.nan.Below x := nofun

theorem Finite.place_bounds (x : Finite) :
    -(infinityRank : Int) < x.place ∧ x.place < infinityRank := by
  have hrank := x.rank_lt
  rw [place]
  split <;> omega

theorem less_iff_of_place? {x y : Binary64} {a b : Int} (hx : x.place? = some a)
    (hy : y.place? = some b) : x.less y = true ↔ a < b := by
  rw [less, hx, hy, decide_eq_true_iff]

theorem less_eq_true_iff : ∀ {x y : Binary64}, x.less y = true ↔ Below x y
  | .finite x, .finite y => by
      rw [less_iff_of_place? rfl rfl, ← Finite.value_lt_iff]
      constructor
      · exact .finite
      · rintro ⟨h⟩
        exact h
  | .finite x, .infinite true => by
      rw [less_iff_of_place? rfl rfl]
      exact iff_of_false (Int.not_lt.mpr (Int.le_of_lt x.place_bounds.1)) nofun
  | .finite x, .infinite false => by
      rw [less_iff_of_place? rfl rfl]
      exact iff_of_true x.place_bounds.2 (.finite_infinite x)
  | .infinite true, .finite y => by
      rw [less_iff_of_place? rfl rfl]
      exact iff_of_true y.place_bounds.1 (.infinite_finite y)
  | .infinite false, .finite y => by
      rw [less_iff_of_place? rfl rfl]
      exact iff_of_false (Int.not_lt.mpr (Int.le_of_lt y.place_bounds.2)) nofun
  | .infinite true, .infinite false => iff_of_true (by decide) .infinite
  | .infinite true, .infinite true => iff_of_false (by decide) nofun
  | .infinite false, .infinite true => iff_of_false (by decide) nofun
  | .infinite false, .infinite false => iff_of_false (by decide) nofun
  | .nan, y => iff_of_false (by simp [less_nan_left]) not_nan_below
  | x, .nan => iff_of_false (by simp [less_nan_right]) not_below_nan

/-- A number that is greater than an exact value. -/
inductive Exceeds (q : ℚ) : Binary64 → Prop
  | finite {x : Finite} (h : q < x.value) : Exceeds q (.finite x)
  | infinite : Exceeds q (.infinite false)

/-- A number that is less than an exact value. -/
inductive FallsShort (q : ℚ) : Binary64 → Prop
  | finite {x : Finite} (h : x.value < q) : FallsShort q (.finite x)
  | infinite : FallsShort q (.infinite true)

section Rounding

variable {n r : Nat}

/-- From `2 ^ 53` on all magnitudes are whole. -/
theorem exists_units_eq (h : rankOfRatio (2 ^ 53) 1 ≤ r) : ∃ m, units r = m * unitsPerOne := by
  have hfirst : rankOfRatio (2 ^ 53) 1 = 1076 * 2 ^ 52 := by decide +kernel
  obtain ⟨k, hk, hunits⟩ := exists_unitsPerOne_eq
  have hshift : 52 + k ≤ shift r := by
    rw [shift, Nat.shiftRight_eq_div_pow]
    omega
  obtain ⟨l, hl⟩ := Nat.exists_eq_add_of_le hshift
  refine ⟨(r - (shift r <<< 52)) * 2 ^ l, ?_⟩
  rw [units, Nat.shiftLeft_eq _ (shift r), hunits, Nat.mul_assoc, ← Nat.pow_add, Nat.add_comm l,
    ← hl]

theorem le_rankOfRatio (h : units r ≤ n * unitsPerOne) : r ≤ rankOfRatio n 1 := by
  rcases Nat.le_total n (2 ^ 53) with hle | hge
  · rw [← units_rankOfRatio hle] at h
    exact units_strictMono.le_iff_le.mp h
  · rcases Nat.le_total r (rankOfRatio (2 ^ 53) 1) with hr | hr
    · exact Nat.le_trans hr (rankOfRatio_mono hge)
    · obtain ⟨m, hm⟩ := exists_units_eq hr
      rw [hm] at h
      rw [← rankOfRatio_of_units hm]
      exact rankOfRatio_mono (Nat.le_of_mul_le_mul_right h (by decide))

theorem rankOfRatio_le_of_units (h : n * unitsPerOne ≤ units r) : rankOfRatio n 1 ≤ r := by
  rcases Nat.le_total n (2 ^ 53) with hle | hge
  · rw [← units_rankOfRatio hle] at h
    exact units_strictMono.le_iff_le.mp h
  · have hr : rankOfRatio (2 ^ 53) 1 ≤ r := by
      refine units_strictMono.le_iff_le.mp ?_
      rw [units_rankOfRatio (Nat.le_refl _)]
      exact Nat.le_trans (Nat.mul_le_mul_right _ hge) h
    obtain ⟨m, hm⟩ := exists_units_eq hr
    rw [hm] at h
    rw [← rankOfRatio_of_units hm]
    exact rankOfRatio_mono (Nat.le_of_mul_le_mul_right h (by decide))

end Rounding

/-- Rounding a whole number does not bring it across a finite number, from either side. -/
theorem place_ofInt (n : Int) : ∃ place, (ofInt n).place? = some place ∧
    (∀ x : Finite, x.signedUnits ≤ n * unitsPerOne → x.place ≤ place) ∧
      ∀ x : Finite, n * unitsPerOne ≤ x.signedUnits → place ≤ x.place := by
  have hunits : n * unitsPerOne =
      if n < 0 then -((n.natAbs * unitsPerOne : Nat) : Int) else (n.natAbs * unitsPerOne : Nat) := by
    rw [Int.natCast_mul, ← Int.neg_mul]
    split
    case isTrue hneg => rw [Int.ofNat_natAbs_of_nonpos (Int.le_of_lt hneg), Int.neg_neg]
    case isFalse hneg => rw [Int.natAbs_of_nonneg (Int.not_lt.mp hneg)]
  have hpos : n ≠ 0 → 0 < n.natAbs * unitsPerOne := fun hn =>
    Nat.mul_pos (Int.natAbs_pos.mpr hn) (by decide)
  have habove : ∀ r, units r ≤ n.natAbs * unitsPerOne → r ≤ rankOfRatio n.natAbs 1 :=
    fun _ => le_rankOfRatio
  have hbelow : ∀ r, n.natAbs * unitsPerOne ≤ units r → rankOfRatio n.natAbs 1 ≤ r :=
    fun _ => rankOfRatio_le_of_units
  have hzero : n.natAbs * unitsPerOne ≤ 0 → rankOfRatio n.natAbs 1 ≤ 0 := hbelow 0
  refine ⟨_, place?_ofInt n, forall_and.mp ?_⟩
  intro x
  have hrank := x.rank_lt
  specialize habove x.rank
  specialize hbelow x.rank
  rw [hunits, Finite.signedUnits, Finite.place]
  -- The sign of the whole number and that of the other one make four cases, for each direction.
  split <;> split <;> constructor <;> intro h <;> omega

theorem exceeds_of_ofInt_below {n : Int} {bound : Binary64} (h : (ofInt n).Below bound) :
    bound.Exceeds n := by
  cases bound with
  | nan =>
      generalize ofInt n = x at h
      cases h
  | infinite negative =>
      cases negative with
      | true =>
          generalize ofInt n = x at h
          cases h
      | false => exact .infinite
  | finite x =>
      apply Exceeds.finite
      obtain ⟨place, hplace, habove, -⟩ := place_ofInt n
      have hless : place < x.place := (less_iff_of_place? hplace rfl).mp (less_eq_true_iff.mpr h)
      rw [Finite.intCast_lt_value_iff]
      by_contra hcontra
      exact Int.not_lt.mpr (habove x (Int.not_lt.mp hcontra)) hless

theorem fallsShort_of_below_ofInt {n : Int} {bound : Binary64} (h : bound.Below (ofInt n)) :
    bound.FallsShort n := by
  cases bound with
  | nan => cases h
  | infinite negative =>
      cases negative with
      | true => exact .infinite
      | false => cases h
  | finite x =>
      apply FallsShort.finite
      obtain ⟨place, hplace, -, hbelow⟩ := place_ofInt n
      have hless : x.place < place := (less_iff_of_place? rfl hplace).mp (less_eq_true_iff.mpr h)
      rw [Finite.value_lt_intCast_iff]
      by_contra hcontra
      exact Int.not_lt.mpr (hbelow x (Int.not_lt.mp hcontra)) hless

end Binary64

namespace Number

/-- The exact value, of which binary64 may keep no more than the nearest one. -/
def value : Number → ℚ
  | .whole n => n.val
  | .float x => x.value

variable {n : Number} {bound : Binary64}

/-- What is below a bound once it is rounded is below it as it is. -/
theorem exceeds_of_below (h : n.toBinary64.Below bound) : bound.Exceeds n.value := by
  cases n with
  | whole n => exact Binary64.exceeds_of_ofInt_below h
  | float x =>
      cases h with
      | finite h => exact .finite h
      | finite_infinite => exact .infinite

theorem fallsShort_of_below (h : bound.Below n.toBinary64) : bound.FallsShort n.value := by
  cases n with
  | whole n => exact Binary64.fallsShort_of_below_ofInt h
  | float x =>
      cases h with
      | finite h => exact .finite h
      | infinite_finite => exact .infinite

/-- Binary64 keeps the value as it is. -/
def IsExact (n : Number) : Prop :=
  ∃ x : Binary64.Finite, n.toBinary64 = .finite x ∧ x.value = n.value

theorem isExact_float (x : Binary64.Finite) : (float x).IsExact := ⟨x, rfl, rfl⟩

theorem isExact_whole {n : Whole} (h : n.val.natAbs ≤ 2 ^ 53) : (whole n).IsExact := by
  obtain ⟨x, hx, hvalue, -⟩ := Binary64.toInt?_ofInt h
  exact ⟨x, hx, Binary64.Finite.toInt?_eq_some_iff.mp hvalue⟩

theorem below_iff_exceeds (h : n.IsExact) : n.toBinary64.Below bound ↔ bound.Exceeds n.value := by
  constructor
  · exact exceeds_of_below
  · obtain ⟨x, hx, hvalue⟩ := h
    rw [hx, ← hvalue]
    intro hexceeds
    cases hexceeds with
    | finite h => exact .finite h
    | infinite => exact .finite_infinite x

theorem below_iff_fallsShort (h : n.IsExact) :
    bound.Below n.toBinary64 ↔ bound.FallsShort n.value := by
  constructor
  · exact fallsShort_of_below
  · obtain ⟨x, hx, hvalue⟩ := h
    rw [hx, ← hvalue]
    intro hshort
    cases hshort with
    | finite h => exact .finite h
    | infinite => exact .infinite_finite x

end Number

end StagedJobs
