import StagedJobs.Json.Reader
import StagedJobs.Proofs.Rounding

namespace StagedJobs

namespace Binary64

variable {num den k m r s : Nat}

theorem rankOfRatio_mul_right (hk : 0 < k) :
    rankOfRatio (num * k) (den * k) = rankOfRatio num den := by
  have hscaled : num * k * unitsPerOne = num * unitsPerOne * k := Nat.mul_right_comm _ _ _
  have hden : ∀ shift, (den * k) <<< shift = (den <<< shift) * k := by
    intro shift
    rw [Nat.shiftLeft_eq, Nat.shiftLeft_eq, Nat.mul_right_comm]
  simp only [rankOfRatio, hscaled, hden, Nat.mul_div_mul_right _ _ hk, divHalfEven_mul_right hk]

theorem rankOfRatio_zero (hden : 0 < den) : rankOfRatio 0 den = 0 := by
  simp [rankOfRatio, divHalfEven, hden]

theorem rankOfRatio_le_of_log2 (num den : Nat) :
    rankOfRatio num den ≤ ((num * unitsPerOne / den).log2 - 52) * 2 ^ 52 + 2 ^ 53 := by
  simp only [rankOfRatio, Nat.shiftLeft_eq]
  refine Nat.add_le_add_left (Nat.le_trans (divHalfEven_le _ _) ?_) _
  rw [← Nat.div_div_eq_div_mul, Nat.succ_le_iff]
  generalize num * unitsPerOne / den = q
  rw [Nat.div_lt_iff_lt_mul (Nat.two_pow_pos _), ← Nat.pow_add]
  exact Nat.lt_of_lt_of_le Nat.lt_log2_self (Nat.pow_le_pow_right (by decide) (by omega))

theorem rankOfRatio_lt_infinityRank (h : num ≤ 2 ^ 53) (den : Nat) :
    rankOfRatio num den < infinityRank := by
  obtain ⟨e, he, hunits⟩ := exists_unitsPerOne_eq
  have hlog : (num * unitsPerOne / den).log2 < 54 + (52 + e) := by
    by_cases hzero : num * unitsPerOne / den = 0
    · rw [hzero, Nat.log2_zero]
      omega
    · rw [Nat.log2_lt hzero]
      refine Nat.lt_of_le_of_lt (Nat.div_le_self _ _) ?_
      rw [hunits, Nat.pow_add 2 54]
      exact Nat.mul_lt_mul_of_pos_right (by omega) (Nat.two_pow_pos _)
  have hinfinity : infinityRank = 2047 * 2 ^ 52 := by decide
  have hbound := rankOfRatio_le_of_log2 num den
  omega

theorem productRank_eq (hr : units r = m * unitsPerOne) (hs : units s = k * unitsPerOne) :
    productRank r s = rankOfRatio (m * k) 1 := by
  have hpos : 0 < unitsPerOne * unitsPerOne := by decide
  calc productRank r s
      = rankOfRatio (m * k * (unitsPerOne * unitsPerOne)) (1 * (unitsPerOne * unitsPerOne)) := by
        rw [productRank, hr, hs, Nat.mul_mul_mul_comm, Nat.one_mul]
    _ = rankOfRatio (m * k) 1 := rankOfRatio_mul_right hpos

theorem quotientRank_eq (hr : units r = m * unitsPerOne) (hs : units s = k * unitsPerOne) :
    quotientRank r s = rankOfRatio m k := by
  rw [quotientRank, hr, hs, rankOfRatio_mul_right (by decide)]

end Binary64

namespace Json

open Binary64

variable {significand : Nat} {exponent : Int} {digits whole fraction : List Char}

theorem units_powerOfTen {k : Nat} (hk : k ≤ 22) :
    units (powerOfTen k) = 10 ^ k * unitsPerOne := by
  have hall : ∀ k ≤ 22, units (powerOfTen k) = Nat.pow 10 k * unitsPerOne := by decide +kernel
  exact hall k hk

theorem le_foldl_digits (digits : List Char) (significand : Nat) :
    significand ≤ digits.foldl (fun n c => 10 * n + digitValue c) significand := by
  induction digits generalizing significand with
  | nil => exact Nat.le_refl _
  | cons c digits ih => exact Nat.le_trans (by omega) (ih (10 * significand + digitValue c))

theorem gather_of_lt
    (h : digits.foldl (fun n c => 10 * n + digitValue c) significand < 0x1_0000_0000_0000_0000) :
    gather significand digits =
      (digits.foldl (fun n c => 10 * n + digitValue c) significand, []) := by
  induction digits generalizing significand with
  | nil => rfl
  | cons c digits ih =>
      have hnext := Nat.lt_of_le_of_lt (le_foldl_digits digits _) h
      simp only [gather, hnext, if_true]
      exact ih h

theorem significand_of_lt (h : digitsValue (whole ++ fraction) < 0x1_0000_0000_0000_0000) :
    Json.significand whole fraction = (digitsValue (whole ++ fraction), -(fraction.length : Int)) := by
  rw [digitsValue, List.foldl_append] at h
  have hwhole := gather_of_lt (Nat.lt_of_le_of_lt (le_foldl_digits fraction _) h)
  have hfraction := gather_of_lt h
  rw [Json.significand, hwhole]
  simp only [hfraction, digitsValue, List.foldl_append]
  simp

/-- Significands of 53 bits and powers of ten up to `10 ^ 22` are exact, so that the one product or
quotient that is rounded is the decimal. -/
theorem scale?_of_short (hsignificand : significand ≤ 2 ^ 53) (hlow : -22 ≤ exponent)
    (hhigh : exponent ≤ 22) :
    scale? (rankOfRatio significand 1) exponent = some (Decimal.rank significand exponent) ∧
      Decimal.rank significand exponent < infinityRank := by
  have hunits := units_rankOfRatio hsignificand
  rw [scale?, if_neg (by omega), Decimal.rank]
  split
  case isTrue hexponent =>
    have hpower := units_powerOfTen (k := exponent.toNat) (by omega)
    have hfinite : rankOfRatio (significand * 10 ^ exponent.toNat) 1 < infinityRank := by
      refine Nat.lt_of_le_of_lt (rankOfRatio_mono (m := 2 ^ 53 * 10 ^ 22) ?_) (by decide +kernel)
      exact Nat.mul_le_mul hsignificand (Nat.pow_le_pow_right (by decide) (by omega))
    simp only [productRank_eq hunits hpower, if_pos hfinite]
    exact ⟨rfl, hfinite⟩
  case isFalse hexponent =>
    have hpower := units_powerOfTen (k := (-exponent).toNat) (by omega)
    have hsteps : ((-exponent).toNat - 1) / 308 = 0 := by omega
    simp only [hsteps, lower, Nat.mul_zero, Nat.sub_zero, quotientRank_eq hunits hpower]
    exact ⟨rfl, rankOfRatio_lt_infinityRank hsignificand _⟩

theorem toBinary64_of_short (negative : Bool) (hsignificand : significand ≤ 2 ^ 53)
    (hlow : -22 ≤ exponent) (hhigh : exponent ≤ 22) :
    (Decimal.mk negative significand exponent).toBinary64 =
      .ofRank negative (Decimal.rank significand exponent) := by
  have hcount : digitCount significand ≤ 16 :=
    (Nat.length_toDigits_le_iff (by decide) (by decide)).mpr (by omega)
  have hsmall : ¬ (digitCount significand : Int) + exponent < -330 := by omega
  have hlarge : ¬ 310 < (digitCount significand : Int) + exponent := by omega
  simp only [Decimal.toBinary64, hsmall, hlarge, decide_false, Bool.or_false, decide_eq_true_eq,
    if_false]
  split
  case isFalse => rfl
  case isTrue hzero =>
    have hpos : 0 < Nat.pow 10 (-exponent).toNat := Nat.pow_pos (by decide)
    rw [hzero, Decimal.rank, Nat.zero_mul, rankOfRatio_zero (by decide), rankOfRatio_zero hpos,
      ite_self]

/-- A numeral of few digits and with a small power of ten is the binary64 number that is nearest to
it. -/
theorem floatNumber?_of_short (negative : Bool) (power : Int)
    (hvalue : digitsValue (whole ++ fraction) ≤ 2 ^ 53) (hlow : -22 ≤ power - fraction.length)
    (hhigh : power - fraction.length ≤ 22) :
    ∃ x, floatNumber? negative whole fraction power = some (.float x) ∧
      (Decimal.ofDigits negative whole fraction power).toBinary64 = .finite x := by
  obtain ⟨hscale, hfinite⟩ := scale?_of_short hvalue hlow hhigh
  have hsum : -(fraction.length : Int) + power = power - fraction.length := by omega
  refine ⟨⟨negative, _, hfinite⟩, ?_, ?_⟩
  · simp only [floatNumber?, significand_of_lt (Nat.lt_of_le_of_lt hvalue (by decide)), hsum, hscale]
    simp [hfinite]
  · rw [Decimal.ofDigits, toBinary64_of_short negative hvalue hlow hhigh, ofRank]
    exact dif_pos hfinite

/-- The number before the one that is nearest to `3 * 10 ^ 23`. -/
def beforeNearest : Binary64.Finite := ⟨false, 4958396687196483697, by decide⟩

/-- Greater powers of ten are rounded themselves, so that a numeral may be read as a number next to the
nearest one. -/
theorem floatNumber?_beforeNearest :
    floatNumber? false ['3'] [] 23 = some (.float beforeNearest) ∧
      (Decimal.ofDigits false ['3'] [] 23).toBinary64 ≠ .finite beforeNearest := by
  decide +kernel

end Json

end StagedJobs
