import Mathlib.Algebra.Order.Ring.Nat
import Mathlib.Data.List.DropRight
import StagedJobs.Numeric.Layout
import StagedJobs.Numeric.Reading

namespace StagedJobs

section DivHalfEven

variable {num den k q : Nat}

theorem divHalfEven_mul_right (hk : 0 < k) :
    divHalfEven (num * k) (den * k) = divHalfEven num den := by
  have hlt : 2 * (num % den * k) < den * k ↔ 2 * (num % den) < den := by
    rw [← Nat.mul_assoc, Nat.mul_lt_mul_right hk]
  have heq : 2 * (num % den * k) = den * k ↔ 2 * (num % den) = den := by
    rw [← Nat.mul_assoc, Nat.mul_left_inj (Nat.ne_of_gt hk)]
  simp only [divHalfEven, Nat.mul_div_mul_right _ _ hk, Nat.mul_mod_mul_right, hlt, heq]

theorem divHalfEven_mul (hden : 0 < den) : divHalfEven (q * den) den = q := by
  simp [divHalfEven, Nat.mul_div_cancel _ hden, hden]

theorem le_divHalfEven : num / den ≤ divHalfEven num den := by
  simp only [divHalfEven]
  split
  · exact Nat.le_refl _
  · split
    · exact Nat.le_add_right _ _
    · exact Nat.le_succ _

end DivHalfEven

namespace Binary64

variable {n m r : Nat}

theorem exists_unitsPerOne_eq : ∃ k, k = 1022 ∧ unitsPerOne = 2 ^ (52 + k) := by
  have hpow : ∀ e, 1 <<< e = 2 ^ e := Nat.one_shiftLeft
  exact ⟨1022, rfl, hpow (52 + 1022)⟩

theorem log2_mul_two_pow (hn : 0 < n) (k : Nat) : (n * 2 ^ k).log2 = n.log2 + k := by
  have hpos : 0 < 2 ^ k := Nat.two_pow_pos k
  rw [Nat.log2_eq_iff (Nat.ne_of_gt (Nat.mul_pos hn hpos)), Nat.pow_add, Nat.add_right_comm,
    Nat.pow_add 2 (n.log2 + 1)]
  exact ⟨Nat.mul_le_mul_right _ (Nat.log2_self_le (Nat.ne_of_gt hn)),
    Nat.mul_lt_mul_of_pos_right Nat.lt_log2_self hpos⟩

theorem rankOfRatio_one (hn : 0 < n) :
    rankOfRatio n 1 = (n.log2 + 1022) * 2 ^ 52 + divHalfEven (n * 2 ^ 52) (2 ^ n.log2) := by
  obtain ⟨k, hk, hunits⟩ := exists_unitsPerOne_eq
  have hscaled : n * unitsPerOne = n * 2 ^ 52 * 2 ^ k := by rw [hunits, Nat.pow_add, Nat.mul_assoc]
  have hden : 1 <<< (n.log2 + k) = 2 ^ n.log2 * 2 ^ k := by
    rw [Nat.one_shiftLeft, Nat.pow_add]
  have hshift : (n * unitsPerOne).log2 - 52 = n.log2 + k := by
    rw [hunits, log2_mul_two_pow hn]
    omega
  simp only [rankOfRatio, Nat.div_one, hshift, hden, Nat.shiftLeft_eq _ 52]
  rw [hscaled, divHalfEven_mul_right (Nat.two_pow_pos k), hk]

/-- A whole number up to `2 ^ 53` is a significand of 53 bits under a power of two, so nothing of it
is rounded. -/
theorem exists_significand (hn : 0 < n) (hle : n ≤ 2 ^ 53) :
    ∃ q, n * 2 ^ 52 = q * 2 ^ n.log2 ∧ 2 ^ 52 ≤ q ∧ q < 2 ^ 53 ∧
      rankOfRatio n 1 = (n.log2 + 1022) * 2 ^ 52 + q := by
  have hpos : 0 < 2 ^ n.log2 := Nat.two_pow_pos _
  have hlow : 2 ^ n.log2 ≤ n := Nat.log2_self_le (Nat.ne_of_gt hn)
  have hhigh : n < 2 ^ n.log2 * 2 := by
    rw [← Nat.pow_succ]
    exact Nat.lt_log2_self
  have hdvd : 2 ^ n.log2 ∣ n * 2 ^ 52 := by
    rcases Nat.lt_or_ge n.log2 53 with hlog | hlog
    · exact Nat.dvd_mul_left_of_dvd (Nat.pow_dvd_pow 2 (Nat.le_of_lt_succ hlog)) n
    · have hge : 2 ^ 53 ≤ 2 ^ n.log2 := Nat.pow_le_pow_right (by decide) hlog
      have heq : 2 ^ n.log2 = n := by omega
      exact Nat.dvd_mul_right_of_dvd ⟨1, by omega⟩ _
  obtain ⟨q, hq⟩ := hdvd
  rw [Nat.mul_comm] at hq
  have hq' : n * 2 ^ 52 = q * 2 ^ n.log2 := by rw [← Nat.mul_comm, hq, Nat.mul_comm]
  refine ⟨q, hq', ?_, ?_, ?_⟩
  · refine Nat.le_of_mul_le_mul_right ?_ hpos
    rw [← hq', Nat.mul_comm]
    exact Nat.mul_le_mul_right _ hlow
  · refine Nat.lt_of_mul_lt_mul_right (a := 2 ^ n.log2) ?_
    rw [← hq']
    omega
  · rw [rankOfRatio_one hn, hq', divHalfEven_mul hpos]

theorem units_rankOfRatio (hle : n ≤ 2 ^ 53) : units (rankOfRatio n 1) = n * unitsPerOne := by
  rcases Nat.eq_zero_or_pos n with rfl | hn
  · decide
  · obtain ⟨q, hq, hlow, hhigh, hrank⟩ := exists_significand hn hle
    obtain ⟨k, hk, hunits⟩ := exists_unitsPerOne_eq
    rw [← hk] at hrank
    have hshift : shift (rankOfRatio n 1) = n.log2 + k := by
      rw [shift, Nat.shiftRight_eq_div_pow, hrank]
      omega
    have hsignificand : rankOfRatio n 1 - (n.log2 + k) * 2 ^ 52 = q := by omega
    rw [units, hshift, Nat.shiftLeft_eq _ 52, hsignificand, Nat.shiftLeft_eq, Nat.pow_add,
      ← Nat.mul_assoc, ← hq, Nat.mul_assoc, ← Nat.pow_add, hunits]

theorem rankOfRatio_of_units (h : units r = n * unitsPerOne) : rankOfRatio n 1 = r := by
  obtain ⟨k, hk, hunits⟩ := exists_unitsPerOne_eq
  rw [units, shift, Nat.shiftRight_eq_div_pow, Nat.shiftLeft_eq, Nat.shiftLeft_eq, hunits] at h
  rcases Nat.eq_zero_or_pos n with rfl | hn
  · have hzero : r - (r / 2 ^ 52 - 1) * 2 ^ 52 = 0 := by
      rw [Nat.zero_mul, Nat.mul_eq_zero] at h
      exact h.resolve_right (Nat.ne_of_gt (Nat.two_pow_pos _))
    obtain rfl : r = 0 := by omega
    decide
  · generalize hs : r / 2 ^ 52 - 1 = s at h
    generalize hq : r - s * 2 ^ 52 = q at h
    have hpos : 0 < 2 ^ s := Nat.two_pow_pos s
    have hbelow : q < 2 ^ 53 := by omega
    have hle : n.log2 + (52 + k) < 53 + s := by
      rw [← Nat.pow_lt_pow_iff_right (a := 2) (by decide), Nat.pow_add, Nat.pow_add 2 53]
      refine Nat.lt_of_le_of_lt ?_ (Nat.mul_lt_mul_of_pos_right hbelow hpos)
      rw [h]
      exact Nat.mul_le_mul_right _ (Nat.log2_self_le (Nat.ne_of_gt hn))
    have habove : 2 ^ 52 ≤ q := by omega
    have hge : 52 + s < n.log2 + 1 + (52 + k) := by
      rw [← Nat.pow_lt_pow_iff_right (a := 2) (by decide), Nat.pow_add, Nat.pow_add 2 (_ + 1)]
      refine Nat.lt_of_le_of_lt (Nat.mul_le_mul_right _ habove) ?_
      rw [h]
      exact Nat.mul_lt_mul_of_pos_right Nat.lt_log2_self (Nat.two_pow_pos _)
    have hrank : r = s * 2 ^ 52 + q := by omega
    have hshift : s = n.log2 + k := Nat.le_antisymm (by omega) (by omega)
    have hexact : n * 2 ^ 52 = q * 2 ^ n.log2 := by
      refine Nat.eq_of_mul_eq_mul_right (Nat.two_pow_pos k) ?_
      rw [Nat.mul_assoc, Nat.mul_assoc, ← Nat.pow_add, ← Nat.pow_add, ← hshift, h]
    rw [rankOfRatio_one hn, hexact, divHalfEven_mul (Nat.two_pow_pos _), hrank, hshift, hk]

theorem rankOfRatio_le (hle : n ≤ 2 ^ 53) : rankOfRatio n 1 ≤ 1076 * 2 ^ 52 := by
  rcases Nat.eq_zero_or_pos n with rfl | hn
  · decide
  · obtain ⟨q, hq, -, hhigh, hrank⟩ := exists_significand hn hle
    rw [hrank]
    rcases Nat.lt_or_ge n.log2 53 with hlog | hlog
    · omega
    · have hge : 2 ^ 53 ≤ 2 ^ n.log2 := Nat.pow_le_pow_right (by decide) hlog
      have hlow := Nat.log2_self_le (Nat.ne_of_gt hn)
      obtain rfl : n = 2 ^ 53 := by omega
      rw [Nat.log2_two_pow] at hq ⊢
      omega

theorem lt_rankOfRatio (hlt : 2 ^ 53 + 1 < n) : 1076 * 2 ^ 52 < rankOfRatio n 1 := by
  have hn : 0 < n := by omega
  have hpos : 0 < 2 ^ n.log2 := Nat.two_pow_pos _
  have hlog : 53 ≤ n.log2 := (Nat.le_log2 (Nat.ne_of_gt hn)).mpr (by omega)
  have hquotient : 2 ^ 52 ≤ n * 2 ^ 52 / 2 ^ n.log2 := by
    rw [Nat.le_div_iff_mul_le hpos, Nat.mul_comm]
    exact Nat.mul_le_mul_right _ (Nat.log2_self_le (Nat.ne_of_gt hn))
  have hround : n * 2 ^ 52 / 2 ^ n.log2 ≤ _ := le_divHalfEven
  rw [rankOfRatio_one hn]
  rcases Nat.eq_or_lt_of_le hlog with heq | hgt
  · rw [← heq] at hround ⊢
    omega
  · omega

/-- No other whole number is read as one up to `2 ^ 53`, save the one past `2 ^ 53` as that. -/
theorem eq_of_rankOfRatio_eq (hle : n ≤ 2 ^ 53) (h : rankOfRatio m 1 = rankOfRatio n 1) :
    m = n ∨ m = 2 ^ 53 + 1 := by
  rcases Nat.lt_trichotomy m (2 ^ 53 + 1) with hlt | heq | hgt
  · have hunits : m * unitsPerOne = n * unitsPerOne := by
      rw [← units_rankOfRatio (Nat.le_of_lt_succ hlt), ← units_rankOfRatio hle, h]
    exact .inl (Nat.eq_of_mul_eq_mul_right (by decide) hunits)
  · exact .inr heq
  · have habove := lt_rankOfRatio hgt
    have hbelow := rankOfRatio_le hle
    omega

end Binary64

theorem toString_eq_digits (n : Int) :
    toString n = (if n < 0 then "-" else "") ++ String.ofList (Nat.toDigits 10 n.natAbs) := by
  cases n with
  | ofNat k => exact String.empty_append.symm
  | negSucc k =>
      rw [if_pos (Int.negSucc_lt_zero k)]
      rfl

theorem digitsValue_toDigits (n : Nat) : digitsValue (Nat.toDigits 10 n) = n :=
  Nat.ofDigitChars_ten_toDigits

theorem toDigits_mul_pow {c : Nat} (hc : 0 < c) (e : Nat) :
    Nat.toDigits 10 (c * 10 ^ e) = Nat.toDigits 10 c ++ List.replicate e '0' := by
  induction e with
  | zero => simp
  | succ e ih =>
      have hpos : 0 < c * 10 ^ e := Nat.mul_pos hc (Nat.pow_pos (by decide))
      have happend := Nat.toDigits_append_toDigits (b := 10) (d := 0) (by decide) hpos (by decide)
      have hnext : c * 10 ^ (e + 1) = 10 * (c * 10 ^ e) + 0 := by
        rw [Nat.pow_succ, Nat.add_zero, ← Nat.mul_assoc, Nat.mul_comm]
      rw [hnext, ← happend, ih, List.replicate_succ', List.append_assoc]
      rfl

theorem Significant.ofDecimal_mul_pow {c : Nat} (hc : 0 < c) (e : Nat) :
    ofDecimal (c * 10 ^ e) 0 = ofDecimal c e := by
  have hzeros : ∀ k (cs : List Char), (List.replicate k '0' ++ cs).dropWhile (· = '0') =
      cs.dropWhile (· = '0') := by
    intro k cs
    exact List.dropWhile_append_of_pos fun c hc => by simpa using (List.mem_replicate.mp hc).2
  simp only [ofDecimal, toDigits_mul_pow hc, List.reverse_append, List.reverse_replicate, hzeros,
    List.length_append, List.length_replicate, Significant.mk.injEq, true_and]
  omega

theorem Significant.ofDecimal_zero (n : Nat) : ∃ zeros,
    Nat.toDigits 10 n = (ofDecimal n 0).digits ++ List.replicate zeros '0' ∧
      (ofDecimal n 0).power = (ofDecimal n 0).digits.length + zeros := by
  have hzeros : ∀ c ∈ (Nat.toDigits 10 n).rtakeWhile (· = '0'), c = '0' := by
    intro c hc
    simpa using List.mem_rtakeWhile_imp hc
  have hsplit : Nat.toDigits 10 n = (ofDecimal n 0).digits ++
      List.replicate ((Nat.toDigits 10 n).rtakeWhile (· = '0')).length '0' := by
    rw [← List.eq_replicate_of_mem hzeros]
    exact List.rdropWhile_append_rtakeWhile.symm
  have hlength := congrArg List.length hsplit
  rw [List.length_append, List.length_replicate] at hlength
  refine ⟨_, hsplit, ?_⟩
  simp only [ofDecimal] at hlength ⊢
  omega

namespace Shortest

variable {n e r : Nat} {tie : Tie}

theorem unitsPerOne_pos : 0 < Binary64.unitsPerOne := by
  decide

theorem quotient_of_units (h : Binary64.units r = n * Binary64.unitsPerOne) (e : Nat) :
    ∃ k, 0 < k ∧ quotient r e = (n * k, 10 ^ e * k) := by
  refine ⟨Binary64.unitsPerOne, unitsPerOne_pos, ?_⟩
  rw [quotient, h, if_pos (Int.natCast_nonneg e), Nat.mul_comm Binary64.unitsPerOne]
  rfl

theorem rank_natCast (c e : Nat) : Decimal.rank c e = Binary64.rankOfRatio (c * 10 ^ e) 1 := by
  rw [Decimal.rank, if_pos (Int.natCast_nonneg e)]
  rfl

theorem nearest_of_dvd (h : Binary64.units r = n * Binary64.unitsPerOne) (hdvd : 10 ^ e ∣ n) :
    nearest tie r e = n / 10 ^ e := by
  obtain ⟨k, hk, hquotient⟩ := quotient_of_units h e
  have hpos : 0 < 10 ^ e * k := Nat.mul_pos (Nat.pow_pos (by decide)) hk
  simp only [nearest, hquotient, Nat.mul_div_mul_right _ _ hk, Nat.mul_mod_mul_right,
    Nat.mod_eq_zero_of_dvd hdvd, Nat.zero_mul, Nat.mul_zero, hpos, if_true]

theorem readingBack?_eq_some {exponent : Int} {c : Nat} (hnearest : nearest tie r exponent = c)
    (hbelow : (quotient r exponent).1 / (quotient r exponent).2 = c)
    (hrank : Decimal.rank c exponent = r) : readingBack? tie r exponent = some c := by
  simp only [readingBack?, hbelow, hnearest, hrank, decide_true]
  split <;> simp_all

theorem readingBack?_eq_none {exponent : Int} (h : ∀ c, Decimal.rank c exponent ≠ r) :
    readingBack? tie r exponent = none := by
  simp only [readingBack?, h, decide_false]

theorem readingBack?_of_dvd (hle : n ≤ 2 ^ 53) (hdvd : 10 ^ e ∣ n) :
    readingBack? tie (Binary64.rankOfRatio n 1) e = some (n / 10 ^ e) := by
  have hunits := Binary64.units_rankOfRatio hle
  obtain ⟨k, hk, hquotient⟩ := quotient_of_units hunits e
  refine readingBack?_eq_some (nearest_of_dvd hunits hdvd) ?_ ?_
  · rw [hquotient, Nat.mul_div_mul_right _ _ hk]
  · rw [rank_natCast, Nat.div_mul_cancel hdvd]

theorem readingBack?_of_not_dvd (hle : n ≤ 2 ^ 53) (hdvd : ¬ 10 ^ e ∣ n) :
    readingBack? tie (Binary64.rankOfRatio n 1) e = none := by
  refine readingBack?_eq_none ?_
  intro c hc
  rw [rank_natCast] at hc
  rcases Binary64.eq_of_rankOfRatio_eq hle hc with heq | heq
  · exact hdvd (heq ▸ Nat.dvd_mul_left _ c)
  · cases e with
    | zero => exact hdvd (Nat.one_dvd n)
    | succ e =>
        rw [Nat.pow_succ, ← Nat.mul_assoc] at heq
        omega

theorem search_rankOfRatio (hn : 0 < n) (hle : n ≤ 2 ^ 53) {finer : Nat} (he : e ≤ finer) :
    search tie (Binary64.rankOfRatio n 1) e finer = .ofDecimal n 0 := by
  have hgrid : ∀ k : Nat, 10 ^ k ∣ n → Significant.ofDecimal (n / 10 ^ k) k = .ofDecimal n 0 := by
    intro k hdvd
    have hpos : 0 < n / 10 ^ k := Nat.div_pos (Nat.le_of_dvd hn hdvd) (Nat.pow_pos (by decide))
    rw [← Significant.ofDecimal_mul_pow hpos, Nat.div_mul_cancel hdvd]
  induction finer generalizing e with
  | zero =>
      obtain rfl : e = 0 := Nat.le_zero.mp he
      rw [search, nearest_of_dvd (Binary64.units_rankOfRatio hle) (Nat.one_dvd n)]
      exact hgrid 0 (Nat.one_dvd n)
  | succ finer ih =>
      by_cases hdvd : 10 ^ e ∣ n
      · rw [search, readingBack?_of_dvd hle hdvd]
        exact hgrid e hdvd
      · have hpos : e ≠ 0 := by
          rintro rfl
          exact hdvd (Nat.one_dvd n)
        obtain ⟨k, rfl⟩ := Nat.exists_eq_succ_of_ne_zero hpos
        have hcoarser : ((k + 1 : Nat) : Int) - 1 = k := by omega
        rw [search, readingBack?_of_not_dvd hle hdvd]
        simp only [Nat.succ_eq_add_one, hcoarser]
        exact ih (by omega)

theorem powerAbove_of_units (hn : 0 < n) (h : Binary64.units r = n * Binary64.unitsPerOne) :
    powerAbove r = digitCount n := by
  have hle : Binary64.unitsPerOne ≤ n * Binary64.unitsPerOne := Nat.le_mul_of_pos_left _ hn
  simp only [powerAbove, h, hle, if_true, Nat.mul_div_cancel _ unitsPerOne_pos]

end Shortest

theorem shortestDigits_rankOfRatio {n : Nat} (hn : 0 < n) (hle : n ≤ 2 ^ 53) (tie : Tie) :
    shortestDigits tie (Binary64.rankOfRatio n 1) = .ofDecimal n 0 := by
  have hpos : 0 < digitCount n := Nat.length_toDigits_pos
  have hcount : digitCount n ≤ 16 :=
    (Nat.length_toDigits_le_iff (by decide) (by decide)).mpr (by omega)
  have hstart : (digitCount n : Int) - 1 = (digitCount n - 1 : Nat) := by omega
  rw [shortestDigits, Shortest.powerAbove_of_units hn (Binary64.units_rankOfRatio hle), hstart]
  exact Shortest.search_rankOfRatio hn hle (by omega)

namespace Layout

theorem writePositional_ofDecimal (layout : Layout) (n : Nat) :
    layout.writePositional (.ofDecimal n 0) =
      String.ofList (Nat.toDigits 10 n) ++ layout.wholeMark := by
  obtain ⟨k, hdigits, hpower⟩ := Significant.ofDecimal_zero n
  have hlength : 0 < (Nat.toDigits 10 n).length := Nat.length_toDigits_pos
  rw [hdigits, List.length_append, List.length_replicate] at hlength
  have hpos : ¬ (Significant.ofDecimal n 0).power ≤ 0 := by omega
  have hwhole :
      ¬ (Significant.ofDecimal n 0).power < (Significant.ofDecimal n 0).digits.length := by
    omega
  have hzeros : ((Significant.ofDecimal n 0).power -
      (Significant.ofDecimal n 0).digits.length).toNat = k := by
    omega
  simp only [writePositional, hpos, hwhole, if_false, hzeros]
  rw [hdigits, String.ofList_append]
  rfl

theorem writeMagnitude_rankOfRatio (layout : Layout) {n : Nat} (hle : n ≤ 2 ^ 53)
    (hpositional : layout.positional ((digitCount n : Int) - 1) = true) :
    layout.writeMagnitude (Binary64.rankOfRatio n 1) =
      String.ofList (Nat.toDigits 10 n) ++ layout.wholeMark := by
  rcases Nat.eq_zero_or_pos n with rfl | hn
  · rfl
  · have hne : Binary64.rankOfRatio n 1 ≠ 0 := by
      intro hzero
      have hunits := Binary64.units_rankOfRatio hle
      rw [hzero] at hunits
      have hpos := Nat.mul_pos hn Shortest.unitsPerOne_pos
      rw [← hunits] at hpos
      exact absurd hpos (by decide)
    have hpower : (Significant.ofDecimal n 0).power = digitCount n := Int.zero_add _
    rw [writeMagnitude, if_neg hne, shortestDigits_rankOfRatio hn hle]
    simp only [hpower, hpositional, if_true, writePositional_ofDecimal]

theorem writeMagnitude_plain {n : Nat} (hle : n ≤ 2 ^ 53) :
    plain.writeMagnitude (Binary64.rankOfRatio n 1) = String.ofList (Nat.toDigits 10 n) :=
  (writeMagnitude_rankOfRatio plain hle rfl).trans String.append_empty

end Layout

namespace Binary64

variable {x : Finite} {n : Int}

theorem eq_rankOfRatio_of_toInt? (h : x.toInt? = some n) : x.rank = rankOfRatio n.natAbs 1 ∧
    (x.negative = true → n ≤ 0) ∧ (x.negative = false → 0 ≤ n) := by
  rw [Finite.toInt?] at h
  split at h
  case isFalse => simp at h
  case isTrue hwhole =>
    have hunits : units x.rank = units x.rank / unitsPerOne * unitsPerOne :=
      (Nat.div_mul_cancel (Nat.dvd_of_mod_eq_zero hwhole)).symm
    have hrank := rankOfRatio_of_units hunits
    generalize units x.rank / unitsPerOne = k at h hrank
    cases hnegative : x.negative with
    | true =>
        obtain rfl : -(k : Int) = n := by simpa [hnegative] using h
        refine ⟨?_, fun _ => by omega, fun hfalse => by simp at hfalse⟩
        rw [Int.natAbs_neg, Int.natAbs_natCast, hrank]
    | false =>
        obtain rfl : (k : Int) = n := by simpa [hnegative] using h
        refine ⟨?_, fun htrue => by simp at htrue, fun _ => by omega⟩
        rw [Int.natAbs_natCast, hrank]

theorem toInt?_ofInt (hle : n.natAbs ≤ 2 ^ 53) :
    ∃ x, ofInt n = finite x ∧ x.toInt? = some n ∧ (n = 0 → x.negative = false) := by
  have hlt : rankOfRatio n.natAbs 1 < infinityRank :=
    Nat.lt_of_le_of_lt (rankOfRatio_le hle) (by decide)
  refine ⟨⟨n < 0, rankOfRatio n.natAbs 1, hlt⟩, by rw [ofInt, ofRatio, ofRank, dif_pos hlt], ?_, ?_⟩
  · have hunits := units_rankOfRatio hle
    have hpos : 0 < unitsPerOne := by decide
    simp only [Finite.toInt?, hunits, Nat.mul_mod_left, if_true, Nat.mul_div_cancel _ hpos,
      Option.some.injEq, decide_eq_true_eq]
    split <;> omega
  · rintro rfl
    rfl

/-- A number that is whole, up to `2 ^ 53` and not the negative zero is written as the whole number is,
and is the number that the whole number is converted to. -/
theorem toText_of_toInt? (h : x.toInt? = some n) (hle : n.natAbs ≤ 2 ^ 53)
    (hzero : n = 0 → x.negative = false) :
    (finite x).toText = toString n ∧ ofInt n = finite x := by
  obtain ⟨hrank, hneg, hnonneg⟩ := eq_rankOfRatio_of_toInt? h
  have hsign : x.negative = decide (n < 0) := by
    cases hnegative : x.negative with
    | true =>
        have hle := hneg hnegative
        have hne : n ≠ 0 := by
          intro hn
          simp [hzero hn] at hnegative
        simp only [Bool.true_eq, decide_eq_true_eq]
        omega
    | false =>
        have hge := hnonneg hnegative
        simp only [Bool.false_eq, decide_eq_false_iff_not]
        omega
  constructor
  · rw [toText, Layout.write, hrank, Layout.writeMagnitude_plain hle, hsign, toString_eq_digits]
    simp only [decide_eq_true_eq]
  · rw [ofInt, ofRatio, ← hrank, ← hsign, ofRank, dif_pos x.rank_lt]

end Binary64

end StagedJobs
